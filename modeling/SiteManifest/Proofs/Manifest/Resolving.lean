import SiteManifest.Manifest.Reference
import SiteManifest.Proofs.Files.Joined
import SiteManifest.Proofs.Text.Digits

/-!
# References below their directory

A reference is looked up below a directory, whatever slashes it starts with, unless it is the
absolute path of something. There is one way out: of a dot and two slashes only the dot and one
slash are taken away, and what is left starts with the other one.

## Main definitions

* `Reference.Spells`: the path that a reference spells.
* `Reference.Escapes`: a reference that spells an absolute path.

## Main statements

* `Reference.resolve_below`: where a reference is looked up.
-/
namespace SiteManifest

namespace Reference

variable {text : String} {p : Path} {n : Nat} {rest : List Char}

/-- A text spells a path: behind any number of slashes stands the path, or one dot and one slash
and then the path. -/
inductive Spells (text : String) (p : Path) : Prop
  | plain {n : Nat} (h : text.toList = List.replicate n '/' ++ p.chars)
    (relative : p.isAbsolute = false) (undotted : ¬['.', '/'] <+: p.chars) : Spells text p
  | dotted {n : Nat} (h : text.toList = List.replicate n '/' ++ '.' :: '/' :: p.chars) :
    Spells text p

/-- A text with a slash too many: any number of slashes, a dot, and two more slashes. -/
def Escapes (text : String) : Prop :=
  ∃ n, List.replicate n '/' ++ ['.', '/', '/'] <+: text.toList

theorem isAbsolute_ofList :
    (Path.mk (String.ofList rest)).isAbsolute = (rest.head? == some '/') := by
  rw [Path.isAbsolute, Path.chars, String.toList_ofList]

/-- The slashes at the start of a text end where something else stands. -/
theorem dropWhile_slashes (ends : rest.head? ≠ some '/') :
    (List.replicate n '/' ++ rest).dropWhile (· == '/') = rest := by
  refine Text.dropWhile_append_of_head (by simp) fun c hc => ?_
  simpa using fun same : c = '/' => ends (same ▸ hc)

theorem head?_chars (relative : p.isAbsolute = false) : p.chars.head? ≠ some '/' := by
  simpa [Path.isAbsolute] using relative

theorem withoutSlashes_of_slashes (h : text.toList = List.replicate n '/' ++ p.chars)
    (relative : p.isAbsolute = false) : withoutSlashes text = p.text := by
  rw [withoutSlashes, h, dropWhile_slashes (head?_chars relative), Path.chars, String.ofList_toList]

/-- Every text is a row of slashes with something behind it that does not start with one. -/
theorem exists_slashes (text : String) :
    ∃ n, ∃ p : Path, text.toList = List.replicate n '/' ++ p.chars ∧ p.isAbsolute = false := by
  have slashes : text.toList.takeWhile (· == '/') = List.replicate _ '/' :=
    List.eq_replicate_of_mem fun c hc => by
      simpa using List.all_eq_true.1 (List.all_takeWhile (p := (· == '/'))) c hc
  refine ⟨(text.toList.takeWhile (· == '/')).length,
    ⟨String.ofList (text.toList.dropWhile (· == '/'))⟩, ?_, ?_⟩
  · rw [Path.chars, String.toList_ofList, ← slashes, List.takeWhile_append_dropWhile]
  · have := List.head?_dropWhile_not (· == '/') text.toList
    rw [isAbsolute_ofList]
    cases head : (text.toList.dropWhile (· == '/')).head? <;> simp_all

/-- What is left of a text without its slashes and its dot is the path that it spells. -/
theorem spells_withoutDot (text : String) : Spells text ⟨withoutDot (withoutSlashes text)⟩ := by
  obtain ⟨n, p, h, relative⟩ := exists_slashes text
  rw [withoutSlashes_of_slashes h relative]
  unfold withoutDot
  split
  next rest dot =>
    have split : text.toList = List.replicate n '/' ++ '.' :: '/' :: rest :=
      h.trans (by rw [← dot, Path.chars])
    exact .dotted (by rw [split, Path.chars, String.toList_ofList])
  next undotted =>
    refine .plain h relative ?_
    rintro ⟨rest, dot⟩
    exact undotted rest dot.symm

/-- A path that is spelled is absolute exactly if there is a slash too many. -/
theorem Spells.isAbsolute_iff (h : Spells text p) : p.isAbsolute = true ↔ Escapes text := by
  constructor
  · intro absolute
    cases h with
    | plain h relative => simp [relative] at absolute
    | @dotted n h =>
      obtain ⟨rest, slash⟩ : ∃ rest, p.chars = '/' :: rest := by
        simpa [Path.isAbsolute, List.head?_eq_some_iff] using absolute
      exact ⟨n, rest, by simp [h, slash]⟩
  · rintro ⟨m, rest, escapes⟩
    have behind : text.toList.dropWhile (· == '/') = '.' :: '/' :: '/' :: rest := by
      rw [← escapes, List.append_assoc]
      exact dropWhile_slashes (by simp)
    cases h with
    | plain h relative undotted =>
      rw [h, dropWhile_slashes (head?_chars relative)] at behind
      exact absurd ⟨'/' :: rest, behind.symm⟩ undotted
    | dotted h =>
      rw [h, dropWhile_slashes (by simp)] at behind
      simp only [List.cons.injEq, true_and] at behind
      simp [Path.isAbsolute, behind]

/-- A reference that is not the absolute path of something is looked up below its directory, at the
relative path that it spells. Only if it has a slash too many, it is looked up at an absolute path,
wherever its directory is. -/
theorem resolve_below {kind : Path → Option Kind} (base : Path)
    (other : (Path.mk text).isAbsolute = true → kind ⟨text⟩ = none) :
    (¬Escapes text → ∃ p, Spells text p ∧ p.isAbsolute = false ∧
      resolve kind text base = base.join p ∧ (resolve kind text base).StartsWith base) ∧
    (Escapes text → ∃ p, Spells text p ∧ p.isAbsolute = true ∧ resolve kind text base = p) := by
  have spelled : resolve kind text base = base.join ⟨withoutDot (withoutSlashes text)⟩ := by
    refine if_neg fun kept => ?_
    rw [Bool.and_eq_true] at kept
    simp [other kept.1] at kept
  have spells := spells_withoutDot text
  rw [spelled]
  refine ⟨fun stays => ?_, fun escapes => ?_⟩
  · have relative := Bool.eq_false_iff.2 (mt spells.isAbsolute_iff.1 stays)
    exact ⟨_, spells, relative, rfl, Path.startsWith_join base relative⟩
  · have absolute := spells.isAbsolute_iff.2 escapes
    exact ⟨_, spells, absolute, if_pos absolute⟩

/-- A disk with one image in a static directory. -/
def oneImage (p : Path) : Option Kind :=
  if p = ⟨"/site/static/img/logo.svg"⟩ then some .file else none

/-- Slashes and a dot do not lead out of the directory. -/
theorem slashes_resolve_below :
    ((Path.mk "//./img/logo.svg").isAbsolute = true → oneImage ⟨"//./img/logo.svg"⟩ = none) ∧
      ¬Escapes "//./img/logo.svg" ∧
      (resolve oneImage "//./img/logo.svg" ⟨"/site/static"⟩).StartsWith ⟨"/site/static"⟩ ∧
      oneImage (resolve oneImage "//./img/logo.svg" ⟨"/site/static"⟩) = some .file := by
  have other : (Path.mk "//./img/logo.svg").isAbsolute = true →
      oneImage ⟨"//./img/logo.svg"⟩ = none := fun _ => by decide +kernel
  have stays : ¬Escapes "//./img/logo.svg" :=
    mt (spells_withoutDot _).isAbsolute_iff.2 (by decide +kernel)
  obtain ⟨_, _, _, _, below⟩ := (resolve_below ⟨"/site/static"⟩ other).1 stays
  exact ⟨other, stays, below, by decide +kernel⟩

/-- A dot and two slashes lead out of it. -/
theorem dotted_slashes_leave_base :
    (Path.mk ".//img/logo.svg").isAbsolute = false ∧
      resolve oneImage ".//img/logo.svg" ⟨"/site/static"⟩ = ⟨"/img/logo.svg"⟩ ∧
      ∀ p : Path, p.isAbsolute = false →
        resolve oneImage ".//img/logo.svg" ⟨"/site/static"⟩ ≠ (Path.mk "/site/static").join p := by
  have leaves : resolve oneImage ".//img/logo.svg" ⟨"/site/static"⟩ = ⟨"/img/logo.svg"⟩ := by
    decide +kernel
  refine ⟨by decide +kernel, leaves, fun p relative below => ?_⟩
  have first : (Path.mk "/site/static").components <+: (Path.mk "/img/logo.svg").components := by
    rw [← leaves, below]
    exact (Path.startsWith_join _ relative).2
  exact absurd first (by decide +kernel)

end Reference

end SiteManifest
