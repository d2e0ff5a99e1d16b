import Mathlib.Data.List.Infix
import SiteManifest.Proofs.Files.Growth

/-!
# Paths of places

A place is spelled by the absolute path of its names. If these are names that something in a
directory can have, then the names are read back from the path, and the path leads to the place.

## Main statements

* `Path.names_ofComponents`: the names of a path that was put together from names.
* `FileTree.walk_reverse`: from the root the names of a directory lead to it.
* `FileSystem.ancestors_pathOf`: the directories around a place, as paths.
-/
namespace SiteManifest

variable {name : String} {names : List String} {place l : Location}

namespace Path

variable {p : Path}

theorem splitWhere_of_noSlash {cs : List Char} (h : '/' ∉ cs) :
    Text.splitWhere (· == '/') cs = [cs] := by
  induction cs with
  | nil => rfl
  | cons c cs ih =>
    rw [List.mem_cons, not_or] at h
    rw [Text.splitWhere, if_neg (by simpa using Ne.symm h.1), ih h.2]

theorem namesIn_of_noSlash {cs : List Char} (h : '/' ∉ cs) :
    namesIn cs = if cs = [] then [] else [String.ofList cs] := by
  rw [namesIn, splitWhere_of_noSlash h]
  cases cs <;> rfl

theorem namesIn_intercalate (h : ∀ name ∈ names, IsName name) :
    namesIn ("/".intercalate names).toList = names := by
  have single {name : String} (ok : IsName name) : namesIn name.toList = [name] := by
    rw [namesIn_of_noSlash ok.noSlash, if_neg (by simpa using ok.nonempty), String.ofList_toList]
  induction names with
  | nil => rfl
  | cons name names ih =>
    obtain ⟨first, others⟩ := List.forall_mem_cons.1 h
    cases names with
    | nil => rw [String.intercalate_singleton, single first]
    | cons next names =>
      have slash : (name ++ "/" ++ "/".intercalate (next :: names)).toList =
          name.toList ++ '/' :: ("/".intercalate (next :: names)).toList := by
        simp
      rw [String.intercalate_cons_cons, slash, namesIn_append_slash, single first, ih others]
      rfl

/-- The names that a path was put together from are the names in it. -/
theorem names_ofComponents (isAbsolute : Bool) (h : ∀ name ∈ names, IsName name) :
    (ofComponents isAbsolute names).names = names := by
  change namesIn _ = _
  cases isAbsolute with
  | false => rw [chars, ofComponents, if_neg (by simp), String.empty_append, namesIn_intercalate h]
  | true =>
    have slash : ("/" ++ "/".intercalate names).toList =
        [] ++ '/' :: ("/".intercalate names).toList := by
      simp
    rw [chars, ofComponents, if_pos rfl, slash, namesIn_append_slash, namesIn_intercalate h]
    rfl

theorem isAbsolute_ofComponents (isAbsolute : Bool) (h : ∀ name ∈ names, IsName name) :
    (ofComponents isAbsolute names).isAbsolute = isAbsolute := by
  cases isAbsolute with
  | true => simp [ofComponents, Path.isAbsolute, chars]
  | false =>
    cases names with
    | nil => rfl
    | cons name names =>
      obtain ⟨first, _⟩ := List.forall_mem_cons.1 h
      obtain ⟨c, cs, chars_eq⟩ := List.exists_cons_of_ne_nil
        (mt String.toList_eq_nil_iff.1 first.nonempty)
      have other : c ≠ '/' := fun same => first.noSlash (by simp [chars_eq, same])
      have opening : ∃ rest, ("/".intercalate (name :: names)).toList = name.toList ++ rest := by
        cases names with
        | nil => exact ⟨[], by simp⟩
        | cons next names => exact ⟨_, by rw [String.intercalate_cons_cons, String.append_assoc,
            String.toList_append]⟩
      obtain ⟨rest, opening⟩ := opening
      simp [ofComponents, Path.isAbsolute, chars, opening, chars_eq, other]

theorem mem_intercalate_slash {c : Char} (h : c ∈ ("/".intercalate names).toList) :
    c = '/' ∨ ∃ name ∈ names, c ∈ name.toList := by
  induction names with
  | nil => simp at h
  | cons name names ih =>
    cases names with
    | nil => exact .inr ⟨name, by simp, by simpa using h⟩
    | cons next names =>
      rw [String.intercalate_cons_cons] at h
      simp only [String.toList_append, List.mem_append] at h
      rcases h with (here | slash) | there
      · exact .inr ⟨name, by simp, here⟩
      · exact .inl (by simpa using slash)
      · refine (ih there).imp_right ?_
        rintro ⟨other, mem, inside⟩
        exact ⟨other, List.mem_cons_of_mem name mem, inside⟩

/-- Every character of a path that was put together is a slash or stands in a name. -/
theorem mem_chars_ofComponents {isAbsolute : Bool} {c : Char}
    (h : c ∈ (ofComponents isAbsolute names).chars) :
    c = '/' ∨ ∃ name ∈ names, c ∈ name.toList := by
  simp only [chars, ofComponents, String.toList_append, List.mem_append] at h
  rcases h with slash | h
  · cases isAbsolute <;> simp_all
  · exact mem_intercalate_slash h

theorem mul_length_le_size_intercalate {n : Nat} (h : ∀ name ∈ names, n ≤ name.utf8ByteSize) :
    n * names.length ≤ ("/".intercalate names).utf8ByteSize := by
  induction names with
  | nil => exact Nat.zero_le _
  | cons name names ih =>
    obtain ⟨first, others⟩ := List.forall_mem_cons.1 h
    cases names with
    | nil => simpa using first
    | cons next names =>
      have rest := ih others
      rw [String.intercalate_cons_cons, String.utf8ByteSize_append, String.utf8ByteSize_append,
        List.length_cons, Nat.mul_succ]
      omega

/-- A path is at least as long as its names together, if all of them have so many bytes. -/
theorem mul_length_le_size_ofComponents {n : Nat} (isAbsolute : Bool)
    (h : ∀ name ∈ names, n ≤ name.utf8ByteSize) :
    n * names.length ≤ (ofComponents isAbsolute names).text.utf8ByteSize := by
  rw [ofComponents, String.utf8ByteSize_append]
  exact Nat.le_add_left_of_le (mul_length_le_size_intercalate h)

theorem outward_eq_tails (names : List String) : outward names = names.tails := by
  induction names with
  | nil => rfl
  | cons name names ih => rw [outward, ih, List.tails]

end Path

/-! ## Proper places -/

theorem ProperPlace.of_isSuffix (h : ProperPlace place) (outer : l <:+ place) : ProperPlace l :=
  fun name mem => h name (outer.subset mem)

theorem ProperPlace.isName (h : ProperPlace place) : ∀ name ∈ place.reverse, Path.IsName name :=
  fun name mem => (h name (List.mem_reverse.1 mem)).toIsName

namespace FileTree

variable {t : FileTree}

/-- The names of a directory lead to it from the root. -/
theorem walk_reverse (proper : ProperPlace place) (directory : t.entry place = some .directory) :
    t.walk [] place.reverse = .ok place := by
  induction place with
  | nil => rfl
  | cons name place ih =>
    obtain ⟨first, others⟩ := properPlace_cons_iff.1 proper
    have outer := t.parent name place (by simp [directory])
    rw [List.reverse_cons, walk_append, ih others outer, Except.bind]
    exact walk_singleton first.can outer (by simp [directory])

/-- A way that does not go back adds its names to the place, but for single dots. -/
theorem eq_of_walk (onwards : ".." ∉ names) (ok : t.walk place names = .ok l) :
    l = (names.filter (· != ".")).reverse ++ place := by
  induction names generalizing place with
  | nil => exact (Except.ok.inj ok).symm
  | cons name names ih =>
    rw [List.mem_cons, not_or] at onwards
    obtain ⟨next, step, ok⟩ := walk_cons_eq_ok_iff.1 ok
    rw [ih onwards.2 ok]
    unfold step? at step
    by_cases dot : name = "."
    · grind
    · have moved : next = name :: place := by grind
      simp [moved, dot]

end FileTree

namespace FileSystem

variable {fs : FileSystem} {p : Path}

theorem names_pathOf (proper : ProperPlace place) : (pathOf place).names = place.reverse :=
  Path.names_ofComponents true proper.isName

theorem isAbsolute_pathOf (place : Location) : (pathOf place).isAbsolute = true := by
  simp [pathOf, Path.ofComponents, Path.isAbsolute, Path.chars]

theorem components_pathOf (proper : ProperPlace place) :
    (pathOf place).components = place.reverse := by
  have noDot : ∀ name ∈ place.reverse, name ≠ "." := by
    intro name mem
    exact (proper name (List.mem_reverse.1 mem)).can.1
  unfold Path.components
  rw [names_pathOf proper]
  cases reversed : place.reverse with
  | nil => rfl
  | cons name rest =>
    rw [reversed] at noDot
    obtain ⟨first, others⟩ := List.forall_mem_cons.1 noDot
    have kept : rest.filter (· != ".") = rest := by simpa using others
    simp [kept, first]

/-- The directories around a place are spelled by its outer parts. -/
theorem ancestors_pathOf (proper : ProperPlace place) :
    (pathOf place).ancestors = place.tails.map pathOf := by
  rw [Path.ancestors, components_pathOf proper, List.reverse_reverse, Path.outward_eq_tails,
    isAbsolute_pathOf]
  rfl

theorem pathOf_nonempty (place : Location) : (pathOf place).chars ≠ [] := by
  simp [pathOf, Path.ofComponents, Path.chars]

end FileSystem

end SiteManifest
