import SiteManifest.Text.Property
import SiteManifest.Text.Uppercase

/-!
# Upper case and white space

White space has no upper case, and no letter is raised to white space. So a text is blank after its
first character was raised exactly if it was before.

## Main definitions

* `spacelessRanges`: the code points between those of white space.

## Main statements

* `isBlank_capitalized_iff`: raising the first character of a text does not make it blank.
-/
namespace SiteManifest.Text

/-- The ranges of code points that hold no white space, and leave nothing else out. -/
def spacelessRanges : List (Nat × Nat) :=
  [(0, 0x8), (0xE, 0x1F), (0x21, 0x84), (0x86, 0x9F), (0xA1, 0x167F), (0x1681, 0x1FFF),
    (0x200B, 0x2027), (0x202A, 0x202E), (0x2030, 0x205E), (0x2060, 0x2FFF), (0x3001, 0x10FFFF)]

/-- Whether one of the ranges without white space covers all numbers from `low` to `high`. -/
def isSpaceless (low high : Nat) : Bool :=
  spacelessRanges.any fun range => range.1 ≤ low && high ≤ range.2

theorem isSpace_eq_false_of_isSpaceless {low high : Nat} (h : isSpaceless low high = true)
    {c : Char} (first : low ≤ c.toNat) (last : c.toNat ≤ high) : isSpace c = false := by
  simp only [isSpaceless, spacelessRanges, List.any_cons, List.any_nil, Bool.or_false,
    Bool.or_eq_true, Bool.and_eq_true, decide_eq_true_eq] at h
  simp only [isSpace, Bool.or_eq_false_iff, Bool.and_eq_false_iff, decide_eq_false_iff_not,
    beq_eq_false_iff_ne]
  omega

theorem isSpace_ofNat_eq_false {low high n : Nat} (h : isSpaceless low high = true)
    (first : low ≤ n) (last : n ≤ high) : isSpace (Char.ofNat n) = false := by
  by_cases valid : n.isValidChar
  · have same : (Char.ofNat n).toNat = n := by
      rw [Char.ofNat, dif_pos valid]
      rfl
    exact isSpace_eq_false_of_isSpaceless h (by omega) (by omega)
  · have nul : Char.ofNat n = '\x00' := dif_neg valid
    rw [nul]
    rfl

/-- Neither the letters of a run nor what they are raised to is white space. -/
theorem isSpaceless_runs : ∀ run ∈ lowerCaseRuns ++ higherCaseRuns,
    isSpaceless run.first run.last = true ∧
      isSpaceless (run.first + run.shift).toNat (run.last + run.shift).toNat = true := by
  decide +kernel

/-- Neither a letter that grows nor what it starts with then is white space. -/
theorem isSpaceless_growingLetters : ∀ letter ∈ growingLetters,
    isSpaceless letter.1 letter.1 = true ∧ ∃ n ∈ letter.2, isSpaceless n n = true := by
  decide +kernel

/-- The upper case of a character is white space if the character is. -/
theorem isSpace_upperCase_iff (c : Char) :
    (∀ d ∈ upperCase c, isSpace d = true) ↔ isSpace c = true := by
  unfold upperCase
  split
  next letters found =>
    obtain ⟨before, after, same, _⟩ := List.lookup_eq_some_iff.1 found
    obtain ⟨letter, n, hn, raised⟩ :=
      isSpaceless_growingLetters (c.toNat, letters) (by simp [same])
    have notSpace := isSpace_eq_false_of_isSpaceless letter (Nat.le_refl _) (Nat.le_refl _)
    have raisedNotSpace := isSpace_ofNat_eq_false raised (Nat.le_refl n) (Nat.le_refl n)
    refine iff_of_false (fun h => ?_) (by simp [notSpace])
    have := h (Char.ofNat n) (List.mem_map_of_mem hn)
    simp [raisedNotSpace] at this
  next =>
    split
    next run found =>
      obtain ⟨letters, raised⟩ := isSpaceless_runs run (List.mem_of_find?_eq_some found)
      have holds := List.find?_some found
      simp only [CaseRun.holds, Bool.and_eq_true, decide_eq_true_eq] at holds
      have notSpace := isSpace_eq_false_of_isSpaceless letters holds.1.1 holds.1.2
      have raisedNotSpace : isSpace (Char.ofNat (c.toNat + run.shift).toNat) = false :=
        isSpace_ofNat_eq_false raised (by omega) (by omega)
      simp [notSpace, raisedNotSpace]
    next => simp

theorem isBlank_capitalized_iff (s : String) : IsBlank (capitalized s) ↔ IsBlank s := by
  unfold capitalized IsBlank
  split
  next empty => simp [empty]
  next c cs text =>
    rw [text, String.toList_ofList, List.forall_mem_append, isSpace_upperCase_iff,
      List.forall_mem_cons]

end SiteManifest.Text
