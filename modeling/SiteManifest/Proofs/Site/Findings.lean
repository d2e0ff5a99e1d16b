import SiteManifest.Site.Check

/-!
# Errors by their place

Where the errors among some findings stand. The findings of a value are put together from those of
its parts, and so are the places of its errors.

## Main definitions

* `HasErrorAt`: an error among findings stands at a place.
* `Site.diagnostics`: all that the checks say of a site.
-/
namespace SiteManifest

/-! ## Findings -/

/-- One of the findings is an error that stands where the steps lead. -/
def HasErrorAt (findings : List Finding) (steps : List Step) : Prop :=
  ∃ f ∈ findings, f.isError = true ∧ f.steps = steps

variable {steps : List Step} {findings : List Finding}

@[simp] theorem hasErrorAt_nil : ¬HasErrorAt [] steps := by
  simp [HasErrorAt]

@[simp] theorem hasErrorAt_append {more : List Finding} :
    HasErrorAt (findings ++ more) steps ↔ HasErrorAt findings steps ∨ HasErrorAt more steps := by
  simp [HasErrorAt, or_and_right, exists_or]

theorem hasErrorAt_singleton {f : Finding} :
    HasErrorAt [f] steps ↔ f.isError = true ∧ f.steps = steps := by
  simp [HasErrorAt]

@[simp] theorem hasErrorAt_here {issue : Issue} :
    HasErrorAt [.here issue] steps ↔ issue.isWarning = false ∧ steps = [] := by
  simp [hasErrorAt_singleton, Finding.isError, Located.here, List.nil_eq]

theorem hasErrorAt_below {step : Step} :
    HasErrorAt (Located.below step findings) steps ↔
      ∃ rest, steps = step :: rest ∧ HasErrorAt findings rest := by
  constructor
  · rintro ⟨_, hmem, error, rfl⟩
    obtain ⟨f, hf, rfl⟩ := List.mem_map.1 hmem
    exact ⟨f.steps, rfl, f, hf, error, rfl⟩
  · rintro ⟨_, rfl, f, hf, error, rfl⟩
    exact ⟨f.under step, List.mem_map_of_mem hf, error, rfl⟩

/-- In a row, an error stands below the index of the value that has it. -/
theorem hasErrorAt_each_from {look : α → List Finding} {first : Nat} {as : List α} :
    HasErrorAt (Located.each look first as) steps ↔
      ∃ i a rest, as[i]? = some a ∧ steps = .index (first + i) :: rest ∧
        HasErrorAt (look a) rest := by
  induction as generalizing first with
  | nil => simp [Located.each]
  | cons a as ih =>
    rw [Located.each, hasErrorAt_append, hasErrorAt_below, ih]
    constructor
    · rintro (⟨rest, rfl, error⟩ | ⟨i, b, rest, hb, rfl, error⟩)
      · exact ⟨0, a, rest, rfl, rfl, error⟩
      · refine ⟨i + 1, b, rest, hb, ?_, error⟩
        rw [Nat.add_assoc, Nat.add_comm 1]
    · rintro ⟨i, b, rest, hb, rfl, error⟩
      cases i with
      | zero =>
        obtain rfl : a = b := by simpa using hb
        exact .inl ⟨rest, rfl, error⟩
      | succ i =>
        refine .inr ⟨i, b, rest, hb, ?_, error⟩
        rw [Nat.add_assoc, Nat.add_comm 1]

theorem hasErrorAt_each {look : α → List Finding} {as : List α} :
    HasErrorAt (Located.each look 0 as) steps ↔
      ∃ i a rest, as[i]? = some a ∧ steps = .index i :: rest ∧ HasErrorAt (look a) rest := by
  simp only [hasErrorAt_each_from, Nat.zero_add]

theorem hasErrorAt_flatMap {look : α → List Finding} {as : List α} :
    HasErrorAt (as.flatMap look) steps ↔ ∃ a ∈ as, HasErrorAt (look a) steps := by
  induction as with
  | nil => simp
  | cons a as ih => simp [ih]

theorem hasErrorAt_unless {p : Prop} [Decidable p] :
    HasErrorAt (if p then [] else findings) steps ↔ ¬p ∧ HasErrorAt findings steps := by
  by_cases h : p <;> simp [h]

theorem hasErrorAt_when {p : Prop} [Decidable p] :
    HasErrorAt (if p then findings else []) steps ↔ p ∧ HasErrorAt findings steps := by
  by_cases h : p <;> simp [h]

/-- An error of something that may not be there, below its step. -/
theorem hasErrorAt_below_elim {step : Step} {look : α → List Finding} {o : Option α} :
    HasErrorAt (Located.below step (o.elim [] look)) steps ↔
      ∃ a rest, o = some a ∧ HasErrorAt (look a) rest ∧ steps = step :: rest := by
  rw [hasErrorAt_below]
  cases o with
  | none => simp
  | some a =>
    constructor
    · rintro ⟨rest, rfl, error⟩
      exact ⟨a, rest, rfl, error, rfl⟩
    · rintro ⟨_, rest, ⟨⟩, error, rfl⟩
      exact ⟨rest, rfl, error⟩

@[simp] theorem hasErrorAt_requireText {subject : Subject} {s : String} :
    HasErrorAt (requireText subject s) steps ↔ Text.IsBlank s ∧ steps = [] := by
  simp [requireText, hasErrorAt_when, Issue.isWarning]

/-! ## Diagnostics -/

theorem Diagnostics.toExcept_eq_ok_iff {d e : Diagnostics} :
    d.toExcept = .ok e ↔ d.errors = [] ∧ d = e := by
  unfold toExcept hasErrors
  cases h : d.errors <;> simp

theorem Diagnostics.errors_ofFindings_eq_nil_iff {base : FieldPath} :
    (ofFindings base findings).errors = [] ↔ ∀ f ∈ findings, f.isError = false := by
  simp [ofFindings]

/-- The errors reported of a whole manifest stand at the paths that lead to the errors found. -/
theorem Diagnostics.exists_mem_errors_iff {path : FieldPath} :
    (∃ d ∈ (ofFindings .root findings).errors, d.field = path) ↔
      ∃ steps, HasErrorAt findings steps ∧ path = .ofSteps steps := by
  constructor
  · rintro ⟨_, hd, rfl⟩
    obtain ⟨f, kept, rfl⟩ := List.mem_map.1 hd
    obtain ⟨hf, error⟩ := List.mem_filter.1 kept
    exact ⟨f.steps, ⟨f, hf, error, rfl⟩, rfl⟩
  · rintro ⟨_, ⟨f, hf, error, rfl⟩, rfl⟩
    exact ⟨f.diagnostic .root, List.mem_map_of_mem (List.mem_filter.2 ⟨hf, error⟩), rfl⟩

/-- Everything that the checks have to say of a site. -/
def Site.diagnostics (s : Site) : Diagnostics := .ofFindings .root s.check

end SiteManifest
