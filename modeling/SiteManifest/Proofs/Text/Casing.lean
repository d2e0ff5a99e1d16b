import SiteManifest.Proofs.Text.Respelling

/-!
# Camel case

The camel case of a name is the spelling of it that has no underscores. Fields of a record can also
be renamed in another way: every word of the name begins with a capital letter, and in the end the
first letter of all is lowered. Both ways lead to the same key unless the name begins with a capital
letter, which camel case keeps.

## Main definitions

* `renamed`: the key of a name that is read as a row of words.
* `Casing.rename`: the key of a name for either casing, if names are read so.

## Main statements

* `camelCase_eq_renamed_iff`: which names have the same key both ways.
* `Casing.apply_eq_rename`: names that begin with a small letter have the same key both ways.
* `camelCase_agrees`: what camel case keeps of a name, and how it compares with renaming.
-/
namespace SiteManifest.Text

variable {c : Char} {cs : List Char} {s : String}

/-! ## Names without underscores -/

theorem toUpper_ne_underscore (h : c ≠ '_') : c.toUpper ≠ '_' := by
  rcases toUpper_cases c with same | ⟨small, raised⟩
  · rwa [same]
  · have underscore : '_'.toNat = 95 := rfl
    rw [Ne, ← Char.toNat_inj]
    omega

theorem underscore_notMem_camelChars (started raise : Bool) (cs : List Char) :
    '_' ∉ camelChars started raise cs := by
  induction cs generalizing started raise with
  | nil => exact List.not_mem_nil
  | cons c cs ih =>
    rw [camelChars]
    split
    next => exact ih started started
    next kept =>
      rw [List.mem_cons, not_or]
      refine ⟨?_, ih true false⟩
      split
      · exact (toUpper_ne_underscore kept).symm
      · exact Ne.symm kept

/-- Where there is no underscore nothing is raised. -/
theorem camelChars_of_notMem (h : '_' ∉ cs) (started : Bool) : camelChars started false cs = cs := by
  induction cs generalizing started with
  | nil => rfl
  | cons c cs ih =>
    rw [List.mem_cons, not_or] at h
    rw [camelChars, if_neg (Ne.symm h.1), ih h.2]
    rfl

theorem squashed_camelChars (started raise : Bool) (cs : List Char) :
    squashed (camelChars started raise cs) = squashed cs := by
  induction cs generalizing started raise with
  | nil => rfl
  | cons c cs ih =>
    rw [camelChars]
    split
    next dropped => rw [ih, squashed_cons, dropped, if_pos (by decide)]
    next =>
      cases raise with
      | false =>
        rw [squashed_cons, squashed_cons, ih]
        rfl
      | true =>
        rw [if_pos rfl, squashed_cons, squashed_cons, ih, isSeparator_toUpper, toLower_toUpper]

theorem underscore_notMem_camelCase (s : String) : '_' ∉ (camelCase s).toList := by
  rw [camelCase, String.toList_ofList]
  exact underscore_notMem_camelChars false false s.toList

theorem camelCase_of_notMem (h : '_' ∉ s.toList) : camelCase s = s := by
  rw [camelCase, camelChars_of_notMem h, String.ofList_toList]

/-- A name and its camel case are spellings of one key. -/
theorem squash_camelCase (s : String) : squash (camelCase s) = squash s := by
  rw [squash_eq_iff, camelCase, String.toList_ofList, squashed_camelChars]

/-! ## Names as rows of words -/

/-- The words of a name run together, each with its first character raised: the one that has an
underscore before it. -/
def pascalChars (before : Char) (cs : List Char) : List Char :=
  ((before :: cs).zip cs).filterMap fun (before, c) =>
    if c = '_' then none else some (if before = '_' then c.toUpper else c)

def lowerFirst : List Char → List Char
  | [] => []
  | c :: cs => c.toLower :: cs

/-- The key of a name that is read as a row of words. Its first word begins like all others, as if
an underscore stood before it, and is lowered afterwards. -/
def renamed (s : String) : String := String.ofList (lowerFirst (pascalChars '_' s.toList))

theorem pascalChars_cons (before c : Char) (cs : List Char) :
    pascalChars before (c :: cs) =
      if c = '_' then pascalChars c cs
      else (if before = '_' then c.toUpper else c) :: pascalChars c cs := by
  by_cases h : c = '_' <;> simp [pascalChars, h]

/-- Behind the first kept character both ways raise what has an underscore before it. -/
theorem camelChars_eq_pascalChars (before : Char) (cs : List Char) :
    camelChars true (decide (before = '_')) cs = pascalChars before cs := by
  induction cs generalizing before with
  | nil => rfl
  | cons c cs ih =>
    rw [camelChars, pascalChars_cons, ← ih]
    split
    next dropped => rw [decide_eq_true dropped]
    next kept =>
      rw [decide_eq_false kept]
      simp only [decide_eq_true_eq]

/-- The two ways differ in the first kept character only: renaming raises it and lowers it again. -/
theorem lowerFirst_camelChars (cs : List Char) :
    lowerFirst (camelChars false false cs) = lowerFirst (pascalChars '_' cs) := by
  induction cs with
  | nil => rfl
  | cons c cs ih =>
    rw [camelChars, pascalChars_cons]
    split
    next dropped => rw [ih, dropped]
    next kept =>
      have rest := camelChars_eq_pascalChars c cs
      rw [decide_eq_false kept] at rest
      rw [rest, lowerFirst, if_pos rfl, lowerFirst, toLower_toUpper]
      rfl

theorem head?_camelChars (cs : List Char) :
    (camelChars false false cs).head? = cs.find? (· ≠ '_') := by
  induction cs with
  | nil => rfl
  | cons c cs ih =>
    rw [camelChars]
    split
    next dropped => rw [ih, List.find?_cons_of_neg (by simpa using dropped)]
    next kept =>
      rw [List.find?_cons_of_pos (by simpa using kept)]
      rfl

theorem toLower_eq_self_iff : c.toLower = c ↔ c.isUpper = false := by
  have capital : c.isUpper = true ↔ 65 ≤ c.toNat ∧ c.toNat ≤ 90 := decide_eq_true_iff
  rw [← Bool.not_eq_true, capital]
  rcases toLower_cases c with ⟨small, same⟩ | ⟨range, lowered⟩
  · exact iff_of_true same small
  · refine iff_of_false (fun same => ?_) (not_not_intro range)
    rw [same] at lowered
    omega

theorem lowerFirst_eq_self_iff : lowerFirst cs = cs ↔ ∀ c ∈ cs.head?, c.isUpper = false := by
  cases cs with
  | nil => simp [lowerFirst]
  | cons c cs => simp [lowerFirst, toLower_eq_self_iff]

/-- Both ways lead to the same key exactly if the first character that is no underscore is no capital
letter. -/
theorem camelCase_eq_renamed_iff :
    camelCase s = renamed s ↔ ∀ c ∈ s.toList.find? (· ≠ '_'), c.isUpper = false := by
  rw [camelCase, renamed, String.ofList_inj, ← lowerFirst_camelChars, eq_comm,
    lowerFirst_eq_self_iff, head?_camelChars]

/-! ## Either casing -/

/-- The key of a field under which a decoder looks for it. -/
def Casing.rename : Casing → String → String
  | .snake, s => s
  | .camel, s => renamed s

namespace Casing

/-- A name without underscores is its own key. -/
theorem apply_of_notMem (casing : Casing) (h : '_' ∉ s.toList) : casing.apply s = s := by
  cases casing with
  | snake => rfl
  | camel => exact camelCase_of_notMem h

theorem squash_apply (casing : Casing) (s : String) : squash (casing.apply s) = squash s := by
  cases casing with
  | snake => rfl
  | camel => exact squash_camelCase s

theorem apply_eq_rename (casing : Casing)
    (small : ∀ c ∈ s.toList.find? (· ≠ '_'), c.isUpper = false) :
    casing.apply s = casing.rename s := by
  cases casing with
  | snake => rfl
  | camel => exact camelCase_eq_renamed_iff.2 small

end Casing

/-! ## Names and their keys -/

/-- Camel case leaves no underscore in a name, has nothing to change a second time, and spells the
same key. Wherever the underscores of a name stand, it is the key that the name is renamed to, unless
the name begins with a capital letter. -/
theorem camelCase_agrees (s : String) :
    '_' ∉ (camelCase s).toList ∧ camelCase (camelCase s) = camelCase s ∧
      squash (camelCase s) = squash s ∧
      ∀ c, s.toList.find? (· ≠ '_') = some c →
        (camelCase s = renamed s ↔ c.isUpper = false) := by
  have without := underscore_notMem_camelCase s
  refine ⟨without, camelCase_of_notMem without, squash_camelCase s, fun c first => ?_⟩
  rw [camelCase_eq_renamed_iff, first]
  simp only [Option.mem_some_iff, forall_eq']

/-- Underscores in front, in pairs and at the end change nothing; a capital letter in front does. -/
theorem baseUrl_camelCase_agrees :
    "__base__url_".toList.find? (· ≠ '_') = some 'b' ∧ 'b'.isUpper = false ∧
      camelCase "__base__url_" = renamed "__base__url_" ∧ renamed "__base__url_" = "baseUrl" ∧
      "Base_url".toList.find? (· ≠ '_') = some 'B' ∧ 'B'.isUpper = true ∧
      camelCase "Base_url" ≠ renamed "Base_url" := by
  have small : "__base__url_".toList.find? (· ≠ '_') = some 'b' := by decide
  have capital : "Base_url".toList.find? (· ≠ '_') = some 'B' := by decide
  refine ⟨small, rfl, ?_, by decide, capital, rfl, fun same => ?_⟩
  · exact ((camelCase_agrees "__base__url_").2.2.2 'b' small).2 rfl
  · exact absurd (((camelCase_agrees "Base_url").2.2.2 'B' capital).1 same) (by decide)

end SiteManifest.Text
