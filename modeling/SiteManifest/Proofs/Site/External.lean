import SiteManifest.Manifest.Reference
import SiteManifest.Proofs.Url.Scheme

/-!
# Texts that look external

The characters before the first colon decide whether a text looks like a URL; whether it is one is
decided by reading it. The two differ in two ways only: a name that starts with no letter looks like
a scheme, and a scheme does not show if blanks, controls, tabs or line ends have to be dropped first.

## Main definitions

* `LacksLetter`: the text looks external without a scheme.
* `HidesScheme`: the text has a scheme that does not show.

## Main statements

* `Link.external_agrees`: for all other texts, a page that looks external is what has a scheme.
-/
namespace SiteManifest

open Text Url

variable {s label : String} {run rest : List Char}

/-! ## The characters before the first colon -/

/-- Where a text is cut at its first colon, the characters before it decide. -/
theorem isExternal_of_toList (split : s.toList = run ++ ':' :: rest) (first : ':' ∉ run) :
    isExternal s = (!run.isEmpty && run.all isSchemeChar) := by
  have inside : ∀ c ∈ run, decide (c ≠ ':') = true := fun c mem =>
    decide_eq_true fun colon => first (colon ▸ mem)
  have lead : s.toList.takeWhile (· ≠ ':') = run := by
    rw [split, List.takeWhile_append_of_pos inside]
    simp
  have behind : s.toList.dropWhile (· ≠ ':') = ':' :: rest := by
    rw [split, List.dropWhile_append_of_pos inside]
    simp
  unfold isExternal
  rw [lead, behind]
  cases run <;> simp

theorem isExternal_eq_false_of_notMem (h : ':' ∉ s.toList) : isExternal s = false := by
  have behind : s.toList.dropWhile (· ≠ ':') = [] := by
    rw [List.dropWhile_eq_nil_iff]
    exact fun c mem => decide_eq_true fun colon => h (colon ▸ mem)
  unfold isExternal
  rw [behind]
  split <;> simp_all

theorem colon_notMem (h : ∀ c ∈ run, isSchemeChar c = true ∨ isEdge c = true) : ':' ∉ run :=
  fun mem => absurd (h ':' mem) (by decide)

/-- A text that looks external starts with characters of a scheme and a colon. -/
theorem isExternal_iff : isExternal s = true ↔ ∃ c name rest,
    s.toList = c :: (name ++ ':' :: rest) ∧ ∀ d ∈ c :: name, isSchemeChar d = true := by
  constructor
  · intro looks
    have colon : ':' ∈ s.toList := by
      by_contra missing
      rw [isExternal_eq_false_of_notMem missing] at looks
      contradiction
    obtain ⟨run, rest, split, first⟩ := List.eq_append_cons_of_mem colon
    rw [isExternal_of_toList split first, Bool.and_eq_true, List.all_eq_true] at looks
    cases run with
    | nil => simp at looks
    | cons c name => exact ⟨c, name, rest, split, looks.2⟩
  · rintro ⟨c, name, rest, split, inside⟩
    have whole : s.toList = (c :: name) ++ ':' :: rest := split
    rw [isExternal_of_toList whole (colon_notMem fun d mem => .inl (inside d mem))]
    simpa using inside

/-! ## The two ways to differ -/

/-- A name in front of a colon that would be a scheme if its first character were a letter. -/
def LacksLetter (s : String) : Prop :=
  ∃ c name rest, s.toList = c :: (name ++ ':' :: rest) ∧
    (∀ d ∈ c :: name, isSchemeChar d = true) ∧ c.isAlpha = false

/-- A scheme with a blank or control, a tab or a line end somewhere before its colon. -/
def HidesScheme (s : String) : Prop :=
  HasScheme s ∧ ∃ c ∈ s.toList.takeWhile (· ≠ ':'), isEdge c = true

theorem lacksLetter_iff : LacksLetter s ↔ isExternal s = true ∧ ¬HasScheme s := by
  rw [isExternal_iff]
  constructor
  · rintro ⟨c, name, rest, split, inside, noLetter⟩
    refine ⟨⟨c, name, rest, split, inside⟩, ?_⟩
    rintro ⟨front, c', name', rest', split', edges, letter, -⟩
    rw [split] at split'
    cases front with
    | nil => simp_all
    | cons d front =>
      have edge := edges d List.mem_cons_self
      rw [← (List.cons.inj split').1, isEdge_eq_false_of_isSchemeChar (inside c List.mem_cons_self)]
        at edge
      contradiction
  · rintro ⟨⟨c, name, rest, split, inside⟩, noScheme⟩
    refine ⟨c, name, rest, split, inside, Bool.eq_false_iff.2 fun letter => noScheme ?_⟩
    exact ⟨[], c, name, rest, split, nofun, letter, fun d mem =>
      .inl (inside d (List.mem_cons_of_mem c mem))⟩

/-- Before the colon of a text with a scheme stand characters of the scheme, and others that do not
count. -/
theorem exists_run_of_hasScheme (h : HasScheme s) : ∃ run rest, s.toList = run ++ ':' :: rest ∧
    run ≠ [] ∧ ∀ c ∈ run, isSchemeChar c = true ∨ isEdge c = true := by
  obtain ⟨front, c, name, rest, split, edges, letter, inside⟩ := h
  refine ⟨front ++ c :: name, rest, by simp [split], by simp, fun d mem => ?_⟩
  rcases List.mem_append.1 mem with mem | mem
  · exact .inr (edges d mem)
  · rcases List.mem_cons.1 mem with rfl | mem
    · exact .inl (isSchemeChar_of_isAlpha letter)
    · exact (inside d mem).imp_right isEdge_of_isIgnored

theorem hidesScheme_iff : HidesScheme s ↔ HasScheme s ∧ isExternal s = false := by
  refine and_congr_right fun scheme => ?_
  obtain ⟨run, rest, split, nonempty, parts⟩ := exists_run_of_hasScheme scheme
  have first := colon_notMem parts
  have lead : s.toList.takeWhile (· ≠ ':') = run := by
    rw [split, List.takeWhile_append_of_pos (by grind)]
    simp
  rw [isExternal_of_toList split first, lead]
  have shown : (!run.isEmpty) = true := by simpa using nonempty
  rw [shown, Bool.true_and, List.all_eq_false]
  constructor
  · rintro ⟨c, mem, edge⟩
    refine ⟨c, mem, fun inside => ?_⟩
    rw [isEdge_eq_false_of_isSchemeChar inside] at edge
    contradiction
  · rintro ⟨c, mem, other⟩
    exact ⟨c, mem, (parts c mem).resolve_left other⟩

/-! ## Links and references -/

theorem Link.check_ofPage (named : ¬IsBlank label) :
    (Link.ofPage s label).check = Located.below (.key "to") (checkPage s) := by
  simp [check, ofPage, checkTarget, requireText, named, Located.below]

theorem Link.check_ofUrl (named : ¬IsBlank label) :
    (Link.ofUrl s label).check = Located.below (.key "href") (checkUrl s) := by
  simp [check, ofUrl, checkTarget, requireText, named, Located.below]

theorem Link.check_ofPage_eq_nil_iff (nonblank : ¬IsBlank s) (named : ¬IsBlank label) :
    (Link.ofPage s label).check = [] ↔ isExternal s = false := by
  rw [check_ofPage named, checkPage, if_neg nonblank]
  cases isExternal s <;> simp [Located.below]

/-- A URL that is told to be relative has no scheme. -/
theorem Link.check_ofUrl_eq_relative_iff (nonblank : ¬IsBlank s) (named : ¬IsBlank label) :
    (Link.ofUrl s label).check = [⟨[.key "href"], .invalidLink s .relative⟩] ↔ ¬HasScheme s := by
  rw [check_ofUrl named, checkUrl, if_neg nonblank, ← parse_eq_relative_iff]
  cases parse s <;> simp [Located.below, Located.here, Located.under]

/-- What looks external is what can be read behind a scheme, unless a name that starts with no letter
stands before the colon, or the scheme is parted or preceded by characters that do not count. Of all
other texts, those that are accepted as pages without a warning are those that are refused as
relative URLs; and whatever has a scheme that shows is warned about as a page and not looked up as a
file. -/
theorem Link.external_agrees (nonblank : ¬IsBlank s) (named : ¬IsBlank label) :
    ((isExternal s = true ↔ Url.parse s ≠ .error .relative) ↔ ¬LacksLetter s ∧ ¬HidesScheme s) ∧
    (¬LacksLetter s → ¬HidesScheme s →
      ((Link.ofPage s label).check = [] ↔
        (Link.ofUrl s label).check = [⟨[.key "href"], .invalidLink s .relative⟩])) ∧
    (¬HidesScheme s → Url.parse s ≠ .error .relative →
      (Link.ofPage s label).check = [⟨[.key "to"], .externalPage s⟩] ∧
      ∀ base kind root static, (Reference.mk s base).isMissing kind root static = false) := by
  rw [lacksLetter_iff, hidesScheme_iff, Ne, parse_eq_relative_iff,
    check_ofPage_eq_nil_iff nonblank named, check_ofUrl_eq_relative_iff nonblank named]
  refine ⟨by cases isExternal s <;> simp, by cases isExternal s <;> simp, fun shown scheme => ?_⟩
  have looks : isExternal s = true := by
    by_contra plain
    exact shown ⟨not_not.1 scheme, by simpa using plain⟩
  constructor
  · rw [check_ofPage named, checkPage, if_neg nonblank, if_pos looks]
    rfl
  · intro base kind root static
    simp [Reference.isMissing, looks]

/-- A URL whose host is refused, and a page. -/
theorem Link.samples_external_agrees :
    (isExternal "https://exa mple.com" = true ∧
      (Link.ofPage "https://exa mple.com" "L").check =
        [⟨[.key "to"], .externalPage "https://exa mple.com"⟩]) ∧
    isExternal "docs/a:b" = false ∧ (Link.ofPage "docs/a:b" "L").check = [] ∧
      (Link.ofUrl "docs/a:b" "L").check = [⟨[.key "href"], .invalidLink "docs/a:b" .relative⟩] := by
  have named : ¬IsBlank "L" := by decide
  have looks : isExternal "https://exa mple.com" = true := by decide +kernel
  have absolute : Url.parse "https://exa mple.com" ≠ .error .relative := by decide +kernel
  have shown : ¬HidesScheme "https://exa mple.com" := by simp [hidesScheme_iff, looks]
  have plain : isExternal "docs/a:b" = false := by decide +kernel
  have relative : Url.parse "docs/a:b" = .error .relative := by decide +kernel
  have noScheme := parse_eq_relative_iff.1 relative
  have agrees := external_agrees (s := "docs/a:b") (by decide) named
  have page : (Link.ofPage "docs/a:b" "L").check = [] := by decide +kernel
  exact ⟨⟨looks, ((external_agrees (by decide) named).2.2 shown absolute).1⟩, plain, page,
    (agrees.2.1 (by simp [lacksLetter_iff, plain]) (by simp [hidesScheme_iff, noScheme])).1 page⟩

/-- A page whose name starts with a number looks external and is refused as a URL; a URL behind a
blank is accepted and does not look external. -/
theorem Link.number_looks_external :
    (¬IsBlank "2.0:notes" ∧ isExternal "2.0:notes" = true ∧
      Url.parse "2.0:notes" = .error .relative ∧
      (Link.ofPage "2.0:notes" "Notes").check = [⟨[.key "to"], .externalPage "2.0:notes"⟩] ∧
      (Link.ofUrl "2.0:notes" "Notes").check =
        [⟨[.key "href"], .invalidLink "2.0:notes" .relative⟩]) ∧
    ¬IsBlank " https://example.com" ∧ isExternal " https://example.com" = false ∧
      Url.parse " https://example.com" = .ok ⟨"https", some (.domain "example.com"), "/"⟩ ∧
      (Link.ofPage " https://example.com" "L").check = [] ∧
      (Link.ofUrl " https://example.com" "L").check = [] := by
  decide +kernel

end SiteManifest
