import Mathlib.Tactic.SplitIfs
import SiteManifest.Proofs.Text.Digits
import SiteManifest.Toml.Printer

/-!
# Texts of TOML

A text has four forms in TOML, and is read back from whichever of them it was written in.

## Main definitions

* `Reads`: a reader finds a value at the start of a text and leaves the rest.
* `NoQuote`: what stands behind a text does not start with a quote.

## Main statements

* `reads_text?`: texts are read as they were written.
* `return_not_mem_textChars`: they are written without carriage returns.
-/
namespace SiteManifest.Toml

open Text

/-- A reader finds a value and leaves the rest of the text. -/
def Reads (reader : (cs : List Char) → Option (Found α cs)) (cs : List Char) (a : α)
    (rest : List Char) : Prop :=
  ∃ shorter, reader cs = some ⟨a, rest, shorter⟩

/-- What stands behind a text starts with no quote, which would be taken for a part of it. -/
def NoQuote (rest : List Char) : Prop := ∀ c ∈ rest.head?, c ≠ '"' ∧ c ≠ '\''

variable {c : Char} {cs rest after : List Char}

/-! ## Escapes -/

theorem baseDigit?_upperHex (n : Nat) : baseDigit? 16 (upperHex n) = some (n % 16) := by
  have small := Nat.mod_lt n (show 16 > 0 by decide)
  simp [baseDigit?, hexDigit?_upperHex, Option.filter, small]

theorem reads_numbered? (n : Nat) (small : n < 0x100) (cs : List Char) :
    Reads (numbered? 4) ('0' :: '0' :: upperHex (n / 16) :: upperHex n :: cs) (Char.ofNat n)
      cs := by
  have zero : baseDigit? 16 '0' = some 0 := by decide
  have value : n / 16 % 16 * 16 + n % 16 = n := by omega
  have digits : digits? 16 ['0', '0', upperHex (n / 16), upperHex n] = some n := by
    simp [digits?, zero, baseDigit?_upperHex, value]
  have valid : n.isValidChar := .inl (by omega)
  have point : codePoint? ['0', '0', upperHex (n / 16), upperHex n] = some (Char.ofNat n) := by
    rw [codePoint?, digits]
    exact if_pos valid
  refine ⟨by simp only [List.length_cons]; omega, ?_⟩
  unfold numbered?
  rw [dif_pos ⟨by decide, by simp⟩]
  simp only [List.take_succ_cons, List.take_zero, point]
  rfl

theorem reads_escape?_u (h : Reads (numbered? 4) cs c rest) : Reads escape? ('u' :: cs) c rest := by
  obtain ⟨shorter, found⟩ := h
  have step : escape? ('u' :: cs) = (numbered? 4 cs).map (·.behindChar 'u') := rfl
  unfold Reads
  rw [step, found]
  exact ⟨_, rfl⟩

/-- A character is written as it is, or as an escape that is read as the character. No escape starts
with a blank or a line end. -/
theorem escaped_cases (c : Char) :
    c ≠ '\\' ∧ isVisible c = true ∧ escaped c = [c] ∨
      ∃ d mark, escaped c = '\\' :: d :: mark ∧ isBlankOrLineEnd d = false ∧
        ∀ cs, Reads escape? (d :: mark ++ cs) c cs := by
  have ofNat {n : Nat} (h : c.toNat = n) : c = Char.ofNat n := by rw [← h, Char.ofNat_toNat]
  have letter {d e : Char} (hd : isBlankOrLineEnd d = false)
      (read : ∀ cs, Reads escape? (d :: cs) e cs) :
      ∃ f mark, ['\\', d] = '\\' :: f :: mark ∧ isBlankOrLineEnd f = false ∧
        ∀ cs, Reads escape? (f :: mark ++ cs) e cs :=
    ⟨d, [], rfl, hd, read⟩
  unfold escaped
  split_ifs with backslash backspace tab lineFeed formFeed carriageReturn control
  · subst backslash
    exact .inr (letter rfl fun cs => ⟨length_lt_cons _ cs, rfl⟩)
  · rw [ofNat backspace]
    exact .inr (letter rfl fun cs => ⟨length_lt_cons _ cs, rfl⟩)
  · subst tab
    exact .inr (letter rfl fun cs => ⟨length_lt_cons _ cs, rfl⟩)
  · subst lineFeed
    exact .inr (letter rfl fun cs => ⟨length_lt_cons _ cs, rfl⟩)
  · rw [ofNat formFeed]
    exact .inr (letter rfl fun cs => ⟨length_lt_cons _ cs, rfl⟩)
  · subst carriageReturn
    exact .inr (letter rfl fun cs => ⟨length_lt_cons _ cs, rfl⟩)
  · simp only [Bool.or_eq_true, decide_eq_true_eq] at control
    have small : c.toNat < 0x100 := by omega
    refine .inr ⟨'u', _, rfl, rfl, fun cs => ?_⟩
    have found := reads_numbered? c.toNat small cs
    rw [Char.ofNat_toNat] at found
    exact reads_escape?_u found
  · simp only [Bool.or_eq_true, decide_eq_true_eq, not_or] at control
    refine .inl ⟨backslash, ?_, rfl⟩
    simp [isVisible, tab]
    omega

/-- What a character is written as starts with a backslash or the character. -/
theorem exists_escaped_eq (c : Char) : ∃ d mark, escaped c = d :: mark ∧ (d = '\\' ∨ d = c) := by
  rcases escaped_cases c with ⟨_, _, plain⟩ | ⟨d, mark, escape, _⟩
  · exact ⟨c, [], plain, .inr rfl⟩
  · exact ⟨'\\', _, escape, .inl rfl⟩

/-! ## Texts on one line -/

theorem reads_basicRest?_quote : Reads basicRest? ('"' :: rest) [] rest := by
  refine ⟨length_lt_cons '"' rest, ?_⟩
  unfold basicRest?
  rfl

theorem reads_basicRest?_escape {s : List Char} (first : Reads escape? cs c after)
    (more : Reads basicRest? after s rest) : Reads basicRest? ('\\' :: cs) (c :: s) rest := by
  obtain ⟨within, first⟩ := first
  obtain ⟨shorter, more⟩ := more
  have notQuote : '\\' ≠ '"' := by decide
  refine ⟨Nat.lt_trans shorter (Nat.lt_trans within (length_lt_cons '\\' cs)), ?_⟩
  unfold basicRest?
  simp only [if_neg notQuote, if_pos, first, more]
  rfl

theorem reads_basicRest?_basic {s : List Char} (hc : isBasic c = true)
    (more : Reads basicRest? cs s rest) : Reads basicRest? (c :: cs) (c :: s) rest := by
  obtain ⟨shorter, more⟩ := more
  have plain := hc
  simp only [isBasic, Bool.and_eq_true, bne_iff_ne] at plain
  refine ⟨Nat.lt_trans shorter (length_lt_cons c cs), ?_⟩
  unfold basicRest?
  simp only [if_neg plain.1.2, if_neg plain.2, if_pos hc, more]
  rfl

/-- Between double quotes every character is read as it was written. -/
theorem reads_basicRest? (s rest : List Char) :
    Reads basicRest? (s.flatMap basicChar ++ '"' :: rest) s rest := by
  induction s with
  | nil => exact reads_basicRest?_quote
  | cons c s ih =>
    by_cases quote : c = '"'
    · subst quote
      exact reads_basicRest?_escape ⟨length_lt_cons _ _, rfl⟩ ih
    · have same : basicChar c = escaped c := if_neg quote
      rcases escaped_cases c with ⟨backslash, visible, plain⟩ | ⟨d, mark, escape, _, read⟩
      · have basic : isBasic c = true := by simp [isBasic, visible, quote, backslash]
        rw [List.flatMap_cons, same, plain]
        exact reads_basicRest?_basic basic ih
      · rw [List.flatMap_cons, same, escape]
        have found := reads_basicRest?_escape (read _) ih
        simpa using found

theorem reads_literalRest? {s : List Char} (h : ∀ c ∈ s, isLiteral c = true) (rest : List Char) :
    Reads literalRest? (s ++ '\'' :: rest) s rest := by
  have dropped : (s ++ '\'' :: rest).dropWhile isLiteral = '\'' :: rest := by
    rw [List.dropWhile_append_of_pos h]
    rfl
  have taken : (s ++ '\'' :: rest).takeWhile isLiteral = s := by
    rw [List.takeWhile_append_of_pos h]
    exact List.append_nil s
  refine ⟨length_lt_of_dropWhile dropped, ?_⟩
  unfold literalRest?
  split
  next found =>
    obtain ⟨-, rfl⟩ := List.cons.inj (found.symm.trans dropped)
    simp only [taken]
  next other => exact absurd dropped (other _)

/-! ## Texts of several lines -/

/-- Up to two quotes behind the closing three still belong to a text. -/
theorem closing_replicate {quote : Char} {n : Nat} (few : n ≤ 2)
    (h : ∀ c ∈ rest.head?, c ≠ quote) :
    closing quote (List.replicate n quote ++ rest) = (List.replicate n quote, rest) := by
  obtain rfl | rfl | rfl : n = 0 ∨ n = 1 ∨ n = 2 := by omega
  · rcases rest with _ | ⟨c, _ | ⟨d, rest⟩⟩
    · rfl
    · simp [closing, h c rfl]
    · simp [closing, h c rfl]
  · rcases rest with _ | ⟨c, rest⟩
    · simp [closing]
    · simp [closing, List.replicate, h c rfl]
  · simp [closing, List.replicate]

theorem reads_basicLines?_closing {n : Nat} (few : n ≤ 2) (h : ∀ c ∈ rest.head?, c ≠ '"') :
    Reads basicLines? ('"' :: '"' :: '"' :: (List.replicate n '"' ++ rest)) (List.replicate n '"')
      rest := by
  refine ⟨by simp; omega, ?_⟩
  unfold basicLines?
  simp only [closing_replicate few h]

theorem continued?_eq_none {d : Char} (h : isBlankOrLineEnd d = false) :
    continued? (d :: cs) = none := by
  simp only [isBlankOrLineEnd, Bool.or_eq_false_iff, beq_eq_false_iff_ne] at h
  have notBlank : ¬isBlank d = true := by simp [h.1]
  have stays : skipBlanks (d :: cs) = d :: cs := List.dropWhile_cons_of_neg notBlank
  have notEnd : ¬(d :: cs).head? = some '\n' := by simpa using h.2
  rw [continued?, stays]
  exact if_neg notEnd

theorem reads_basicLines?_escape {d : Char} {s : List Char} (h : isBlankOrLineEnd d = false)
    (first : Reads escape? (d :: cs) c after) (more : Reads basicLines? after s rest) :
    Reads basicLines? ('\\' :: d :: cs) (c :: s) rest := by
  obtain ⟨within, first⟩ := first
  obtain ⟨shorter, more⟩ := more
  refine ⟨Nat.lt_trans shorter (Nat.lt_trans within (length_lt_cons '\\' _)), ?_⟩
  rw [basicLines?]
  · rw [if_pos rfl]
    split
    next continued =>
      rw [continued?_eq_none h] at continued
      contradiction
    next =>
      simp only [first, more]
      rfl
  · intro _ quote
    contradiction

theorem reads_basicLines?_char {s : List Char} (hc : isVisible c = true ∨ c = '\n')
    (backslash : c ≠ '\\') (notThree : ∀ tail, c = '"' → cs ≠ '"' :: '"' :: tail)
    (more : Reads basicLines? cs s rest) : Reads basicLines? (c :: cs) (c :: s) rest := by
  obtain ⟨shorter, more⟩ := more
  have kept : (isVisible c || decide (c = '\n')) = true := by simpa using hc
  refine ⟨Nat.lt_trans shorter (length_lt_cons c cs), ?_⟩
  rw [basicLines?]
  · rw [if_neg backslash, if_pos kept, more]
    rfl
  · exact notThree

/-- A character that is no quote, or a quote behind two others, is written with something else than a
quote at its start. -/
theorem exists_basicLineChars_eq {quotes : Nat} (h : c ≠ '"' ∨ 2 ≤ quotes) (s : List Char) :
    ∃ d tail, basicLineChars quotes (c :: s) = d :: tail ∧ d ≠ '"' := by
  unfold basicLineChars
  split_ifs with quote few lineEnd
  · exact absurd quote (h.resolve_right (by omega))
  · exact ⟨_, _, rfl, by decide⟩
  · exact ⟨c, _, rfl, quote⟩
  · obtain ⟨d, mark, written, rfl | rfl⟩ := exists_escaped_eq c
    · rw [written]
      exact ⟨_, _, rfl, by decide⟩
    · rw [written]
      exact ⟨_, _, rfl, quote⟩

/-- Behind a quote the text either ends, with at most one more quote, or goes on with something that
does not make three quotes. -/
theorem basicLineChars_behind_quote {quotes : Nat} (few : quotes < 2) (s : List Char) :
    (∃ n ≤ 1, s = List.replicate n '"' ∧ basicLineChars (quotes + 1) s = s) ∨
      ∀ rest tail, basicLineChars (quotes + 1) s ++ '"' :: rest ≠ '"' :: '"' :: tail := by
  match s with
  | [] => exact .inl ⟨0, by decide, rfl, rfl⟩
  | d :: s =>
    by_cases other : d ≠ '"' ∨ 2 ≤ quotes + 1
    · obtain ⟨e, tail, start, notQuote⟩ := exists_basicLineChars_eq other s
      refine .inr fun _ _ same => ?_
      rw [start] at same
      exact notQuote (List.cons.inj same).1
    · obtain ⟨rfl, rfl⟩ : d = '"' ∧ quotes = 0 := by grind
      match s with
      | [] => exact .inl ⟨1, by decide, rfl, rfl⟩
      | e :: s =>
        obtain ⟨f, tail, start, notQuote⟩ :=
          exists_basicLineChars_eq (c := e) (.inr (Nat.le_refl 2)) s
        have written : basicLineChars 1 ('"' :: e :: s) = '"' :: f :: tail := congrArg _ start
        refine .inr fun _ _ same => ?_
        rw [written] at same
        exact notQuote (List.cons.inj (List.cons.inj same).2).1

/-- Between three double quotes every character is read as it was written, as long as nothing that
stands behind can be taken for one more quote. -/
theorem reads_basicLines? (s : List Char) (quotes : Nat) (h : ∀ c ∈ rest.head?, c ≠ '"') :
    Reads basicLines? (basicLineChars quotes s ++ '"' :: '"' :: '"' :: rest) s rest := by
  induction s generalizing quotes with
  | nil => exact reads_basicLines?_closing (n := 0) (by decide) h
  | cons c s ih =>
    by_cases quote : c = '"'
    · subst quote
      rw [basicLineChars, if_pos rfl]
      split_ifs with few
      · rw [List.cons_append]
        rcases basicLineChars_behind_quote few s with ⟨n, small, rfl, same⟩ | goesOn
        · -- Quotes at the end of the text are read together with the closing ones.
          rw [same]
          obtain rfl | rfl : n = 0 ∨ n = 1 := by omega
          · exact reads_basicLines?_closing (n := 1) (by decide) h
          · exact reads_basicLines?_closing (n := 2) (by decide) h
        · exact reads_basicLines?_char (.inl rfl) (by decide) (fun _ _ => goesOn _ _) (ih _)
      · exact reads_basicLines?_escape rfl ⟨length_lt_cons _ _, rfl⟩ (ih 0)
    · have notThree {cs : List Char} (tail : List Char) (same : c = '"') :
          cs ≠ '"' :: '"' :: tail := absurd same quote
      rw [basicLineChars, if_neg quote]
      split_ifs with lineEnd
      · have notBackslash : c ≠ '\\' := by
          rw [lineEnd]
          decide
        exact reads_basicLines?_char (.inr lineEnd) notBackslash notThree (ih 0)
      · rcases escaped_cases c with ⟨backslash, visible, plain⟩ | ⟨d, mark, escape, start, read⟩
        · rw [plain]
          exact reads_basicLines?_char (.inl visible) backslash notThree (ih 0)
        · rw [escape]
          have found := reads_basicLines?_escape start (read _) (ih 0)
          simpa using found

/-! ### Without escapes -/

theorem le_longestRun (quote : Char) (s : List Char) (longest current : Nat) :
    longest ≤ longestRun quote longest current s ∧ current ≤ longestRun quote longest current s := by
  induction s generalizing longest current with
  | nil => exact ⟨Nat.le_max_left .., Nat.le_max_right ..⟩
  | cons c s ih =>
    unfold longestRun
    split
    · have := ih longest (current + 1)
      omega
    · have := ih (max longest current) 0
      omega

theorem reads_literalLines?_closing {n : Nat} (few : n ≤ 2) (h : ∀ c ∈ rest.head?, c ≠ '\'') :
    Reads literalLines? ('\'' :: '\'' :: '\'' :: (List.replicate n '\'' ++ rest))
      (List.replicate n '\'') rest := by
  refine ⟨by simp; omega, ?_⟩
  unfold literalLines?
  simp only [closing_replicate few h]

theorem reads_literalLines?_char {s : List Char} (hc : isVisible c = true ∨ c = '\n')
    (notThree : ∀ tail, c = '\'' → cs ≠ '\'' :: '\'' :: tail)
    (more : Reads literalLines? cs s rest) : Reads literalLines? (c :: cs) (c :: s) rest := by
  obtain ⟨shorter, more⟩ := more
  have kept : (isVisible c || decide (c = '\n')) = true := by simpa using hc
  refine ⟨Nat.lt_trans shorter (length_lt_cons c cs), ?_⟩
  rw [literalLines?]
  · rw [if_pos kept, more]
    rfl
  · exact notThree

/-- Between three single quotes characters that can be seen are read as they are, as long as there
are no three quotes in a row among them. -/
theorem reads_literalLines? (s : List Char) {longest current : Nat}
    (visible : ∀ c ∈ s, isVisible c = true ∨ c = '\n')
    (few : longestRun '\'' longest current s ≤ 2) (h : ∀ c ∈ rest.head?, c ≠ '\'') :
    Reads literalLines? (s ++ '\'' :: '\'' :: '\'' :: rest) s rest := by
  induction s generalizing longest current with
  | nil => exact reads_literalLines?_closing (n := 0) (by decide) h
  | cons c s ih =>
    obtain ⟨hc, others⟩ := List.forall_mem_cons.1 visible
    by_cases quote : c = '\''
    · subst quote
      rw [longestRun, if_pos rfl] at few
      by_cases ends : s = [] ∨ s = ['\'']
      · -- Quotes at the end of the text are read together with the closing ones.
        rcases ends with rfl | rfl
        · exact reads_literalLines?_closing (n := 1) (by decide) h
        · exact reads_literalLines?_closing (n := 2) (by decide) h
      · refine reads_literalLines?_char hc (fun tail _ same => ends ?_) (ih others few)
        rcases s with _ | ⟨d, _ | ⟨e, s⟩⟩
        · exact .inl rfl
        · obtain ⟨rfl, _⟩ := List.cons.inj same
          exact .inr rfl
        · obtain rfl : d = '\'' := (List.cons.inj same).1
          obtain rfl : e = '\'' := (List.cons.inj (List.cons.inj same).2).1
          simp only [longestRun, if_pos] at few
          have := (le_longestRun '\'' s longest (current + 1 + 1 + 1)).2
          omega
    · rw [longestRun, if_neg quote] at few
      exact reads_literalLines?_char hc (fun _ same => absurd same quote) (ih others few)

/-! ## All forms -/

theorem reads_lineText?_basic {s : List Char} (h : Reads basicRest? cs s rest) :
    Reads lineText? ('"' :: cs) (String.ofList s) rest := by
  obtain ⟨shorter, found⟩ := h
  have step : lineText? ('"' :: cs) =
      (basicRest? cs).map fun t => (t.map String.ofList).behindChar '"' := rfl
  unfold Reads
  rw [step, found]
  exact ⟨_, rfl⟩

theorem reads_lineText?_literal {s : List Char} (h : Reads literalRest? cs s rest) :
    Reads lineText? ('\'' :: cs) (String.ofList s) rest := by
  obtain ⟨shorter, found⟩ := h
  have step : lineText? ('\'' :: cs) =
      (literalRest? cs).map fun t => (t.map String.ofList).behindChar '\'' := rfl
  unfold Reads
  rw [step, found]
  exact ⟨_, rfl⟩

theorem reads_text?_of_line {s : String} (basic : ∀ tail, cs ≠ '"' :: '"' :: '"' :: tail)
    (literal : ∀ tail, cs ≠ '\'' :: '\'' :: '\'' :: tail) (h : Reads lineText? cs s rest) :
    Reads text? cs s rest := by
  obtain ⟨shorter, found⟩ := h
  refine ⟨shorter, ?_⟩
  rw [text?]
  · exact found
  · exact basic
  · exact literal

theorem exists_basicChar_eq (c : Char) : ∃ d mark, basicChar c = d :: mark ∧ d ≠ '"' := by
  unfold basicChar
  split_ifs with quote
  · exact ⟨_, _, rfl, by decide⟩
  · obtain ⟨d, mark, written, rfl | rfl⟩ := exists_escaped_eq c
    · exact ⟨_, _, written, by decide⟩
    · exact ⟨_, _, written, quote⟩

theorem reads_text?_basicText (s : List Char) (h : NoQuote rest) :
    Reads text? (basicText s ++ rest) (String.ofList s) rest := by
  have text : basicText s ++ rest = '"' :: (s.flatMap basicChar ++ '"' :: rest) := by
    simp [basicText]
  rw [text]
  refine reads_text?_of_line (fun tail same => ?_) (fun tail same => ?_)
    (reads_lineText?_basic (reads_basicRest? s rest))
  · obtain ⟨-, same⟩ := List.cons.inj same
    cases s with
    | nil =>
      obtain ⟨-, same⟩ := List.cons.inj same
      exact (h '"' (by rw [same]; rfl)).1 rfl
    | cons c s =>
      obtain ⟨d, mark, written, notQuote⟩ := exists_basicChar_eq c
      rw [List.flatMap_cons, written] at same
      exact notQuote (List.cons.inj same).1
  · exact absurd (List.cons.inj same).1 (by decide)

theorem reads_text?_literalText {s : List Char} (hs : ∀ c ∈ s, isLiteral c = true)
    (h : NoQuote rest) : Reads text? (literalText s ++ rest) (String.ofList s) rest := by
  have text : literalText s ++ rest = '\'' :: (s ++ '\'' :: rest) := by simp [literalText]
  rw [text]
  refine reads_text?_of_line (fun tail same => ?_) (fun tail same => ?_)
    (reads_lineText?_literal (reads_literalRest? hs rest))
  · exact absurd (List.cons.inj same).1 (by decide)
  · obtain ⟨-, same⟩ := List.cons.inj same
    cases s with
    | nil =>
      obtain ⟨-, same⟩ := List.cons.inj same
      exact (h '\'' (by rw [same]; rfl)).2 rfl
    | cons c s =>
      obtain ⟨rfl, -⟩ := List.cons.inj same
      exact absurd (hs _ (.head _)) (by decide)

theorem visible_of_not_hasControl {s : List Char} (h : hasControl s = false) :
    ∀ c ∈ s, isVisible c = true ∨ c = '\n' := by
  intro c hc
  have plain : isControl c = false := by
    simp only [hasControl, List.any_eq_false] at h
    simpa using h c hc
  simp only [isControl, Bool.or_eq_false_iff, Bool.and_eq_false_iff, bne_eq_false_iff_eq,
    decide_eq_false_iff_not] at plain
  simp only [isVisible, Bool.or_eq_true, Bool.and_eq_true, beq_iff_eq, decide_eq_true_eq]
  grind

/-- The line end that a text of several lines starts with is left out again. -/
theorem dropLineEnd_firstLineEnd {s written : List Char}
    (h : '\n' ∉ s → written.head? ≠ some '\n') :
    dropLineEnd (firstLineEnd s ++ written) = written := by
  unfold firstLineEnd
  split_ifs with lineEnd
  · rfl
  · rw [List.nil_append, dropLineEnd]
    intro cs same
    exact h lineEnd (by rw [same]; rfl)

theorem head?_basicLineChars_append {s : List Char} (h : '\n' ∉ s) (tail : List Char) :
    (basicLineChars 0 s ++ '"' :: tail).head? ≠ some '\n' := by
  cases s with
  | nil => simp [basicLineChars]
  | cons c s =>
    have notEnd : c ≠ '\n' := fun same => h (same ▸ .head s)
    unfold basicLineChars
    split_ifs with quote few
    · simp [quote]
    · simp
    · obtain ⟨d, mark, written, rfl | rfl⟩ := exists_escaped_eq c
      · simp [written]
      · simpa [written] using notEnd

theorem reads_text?_of_basicLines {s : List Char} (h : Reads basicLines? (dropLineEnd cs) s rest) :
    Reads text? ('"' :: '"' :: '"' :: cs) (String.ofList s) rest := by
  obtain ⟨shorter, found⟩ := h
  have step : text? ('"' :: '"' :: '"' :: cs) = (basicLines? (dropLineEnd cs)).map fun t =>
      (t.map String.ofList).behind (length_dropLineEnd_lt '"' cs) := rfl
  unfold Reads
  rw [step, found]
  exact ⟨_, rfl⟩

theorem reads_text?_of_literalLines {s : List Char}
    (h : Reads literalLines? (dropLineEnd cs) s rest) :
    Reads text? ('\'' :: '\'' :: '\'' :: cs) (String.ofList s) rest := by
  obtain ⟨shorter, found⟩ := h
  have step : text? ('\'' :: '\'' :: '\'' :: cs) = (literalLines? (dropLineEnd cs)).map fun t =>
      (t.map String.ofList).behind (length_dropLineEnd_lt '\'' cs) := rfl
  unfold Reads
  rw [step, found]
  exact ⟨_, rfl⟩

theorem reads_text?_basicLines (s : List Char) (h : NoQuote rest) :
    Reads text? (basicLines s ++ rest) (String.ofList s) rest := by
  have text : basicLines s ++ rest = '"' :: '"' :: '"' ::
      (firstLineEnd s ++ (basicLineChars 0 s ++ '"' :: '"' :: '"' :: rest)) := by
    simp [basicLines]
  have start := dropLineEnd_firstLineEnd (s := s) fun lineEnd =>
    head?_basicLineChars_append lineEnd ('"' :: '"' :: rest)
  have found := reads_basicLines? s 0 fun c hc => (h c hc).1
  rw [← start] at found
  rw [text]
  exact reads_text?_of_basicLines found

theorem reads_text?_literalLines {s : List Char}
    (visible : ∀ c ∈ s, isVisible c = true ∨ c = '\n') (few : longestRun '\'' 0 0 s ≤ 2)
    (h : NoQuote rest) : Reads text? (literalLines s ++ rest) (String.ofList s) rest := by
  have text : literalLines s ++ rest = '\'' :: '\'' :: '\'' ::
      (firstLineEnd s ++ (s ++ '\'' :: '\'' :: '\'' :: rest)) := by
    simp [literalLines]
  have start : dropLineEnd (firstLineEnd s ++ (s ++ '\'' :: '\'' :: '\'' :: rest)) =
      s ++ '\'' :: '\'' :: '\'' :: rest := by
    refine dropLineEnd_firstLineEnd fun lineEnd => ?_
    cases s with
    | nil => simp
    | cons c s =>
      have notEnd : c ≠ '\n' := fun same => lineEnd (same ▸ .head s)
      simpa using notEnd
  have found := reads_literalLines? s visible few fun c hc => (h c hc).2
  rw [← start] at found
  rw [text]
  exact reads_text?_of_literalLines found

theorem isLiteral_of_visible {s : List Char} (visible : ∀ c ∈ s, isVisible c = true ∨ c = '\n')
    (quote : '\'' ∉ s) (lineEnd : '\n' ∉ s) : ∀ c ∈ s, isLiteral c = true := by
  intro c hc
  have seen : isVisible c = true := (visible c hc).resolve_right fun same => lineEnd (same ▸ hc)
  have notQuote : c ≠ '\'' := fun same => quote (same ▸ hc)
  simp [isLiteral, seen, notQuote]

/-- A text is read as it was written, whichever form it has. -/
theorem reads_text? (s : String) (h : NoQuote rest) : Reads text? (textChars s ++ rest) s rest := by
  have same : String.ofList s.toList = s := String.ofList_toList
  suffices Reads text? (textChars s ++ rest) (String.ofList s.toList) rest by rwa [same] at this
  unfold textChars
  simp only [Bool.and_eq_true, Bool.not_eq_true', decide_eq_true_eq]
  split_ifs with basic literal basicThree literalThree lineEnd
  · exact reads_text?_basicText _ h
  · obtain ⟨⟨plain, quote⟩, lineEnd⟩ := literal
    exact reads_text?_literalText
      (isLiteral_of_visible (visible_of_not_hasControl plain) quote lineEnd) h
  · exact reads_text?_basicLines _ h
  · exact reads_text?_literalLines (visible_of_not_hasControl literalThree.1) literalThree.2 h
  · exact reads_text?_basicLines _ h
  · exact reads_text?_basicText _ h

/-! ## Carriage returns -/

theorem return_not_mem_escaped (c : Char) : '\r' ∉ escaped c := by
  have hex (n : Nat) : '\r' ≠ upperHex n := fun same => by
    have digit := hexDigit?_upperHex n
    rw [← same] at digit
    contradiction
  unfold escaped
  split_ifs with _ _ _ _ _ carriageReturn
  · decide
  · decide
  · decide
  · decide
  · decide
  · decide
  · simp [hex]
  · simpa using Ne.symm carriageReturn

theorem return_not_mem_basicText (s : List Char) : '\r' ∉ basicText s := by
  have char (c : Char) : '\r' ∉ basicChar c := by
    unfold basicChar
    split_ifs
    · decide
    · exact return_not_mem_escaped c
  simp [basicText, char]

theorem return_not_mem_basicLineChars (s : List Char) (quotes : Nat) :
    '\r' ∉ basicLineChars quotes s := by
  induction s generalizing quotes with
  | nil => simp [basicLineChars]
  | cons c s ih =>
    unfold basicLineChars
    split_ifs with quote few lineEnd
    · simp [quote, ih]
    · simp [ih]
    · simp [lineEnd, ih]
    · simp [return_not_mem_escaped, ih]

theorem return_not_mem_of_not_hasControl {s : List Char} (h : hasControl s = false) : '\r' ∉ s := by
  intro mem
  have := visible_of_not_hasControl h '\r' mem
  revert this
  decide

/-- A text is written without carriage returns, which would not all be read. -/
theorem return_not_mem_textChars (s : String) : '\r' ∉ textChars s := by
  have lineEnd (s : List Char) : '\r' ∉ firstLineEnd s := by
    unfold firstLineEnd
    split_ifs <;> simp
  have several (s : List Char) : '\r' ∉ basicLines s := by
    simp [basicLines, lineEnd, return_not_mem_basicLineChars]
  unfold textChars
  simp only [Bool.and_eq_true, Bool.not_eq_true', decide_eq_true_eq]
  split_ifs with basic literal basicThree literalThree
  · exact return_not_mem_basicText _
  · simp [literalText, return_not_mem_of_not_hasControl literal.1.1]
  · exact several _
  · simp [literalLines, lineEnd, return_not_mem_of_not_hasControl literalThree.1]
  · exact several _
  · exact return_not_mem_basicText _

end SiteManifest.Toml
