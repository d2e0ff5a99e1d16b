import SiteManifest.Files.System

/-!
# Joined paths

A relative path behind another one adds its names to those of the other and starts where the other
starts. So to look up a joined path is to look up the first part and to go on from there.

## Main statements

* `Path.names_join`: the names of a joined path.
* `Path.startsWith_join`: a joined path begins with its first part.
* `FileTree.walk_append`: a way in two parts.
-/
namespace SiteManifest

/-! ## Names -/

theorem Text.splitWhere_append {isSeparator : Char → Bool} {c : Char} (hc : isSeparator c = true)
    (before after : List Char) :
    splitWhere isSeparator (before ++ c :: after) =
      splitWhere isSeparator before ++ splitWhere isSeparator after := by
  induction before with
  | nil => simp [splitWhere, hc]
  | cons d before ih => grind [splitWhere, splitWhere_ne_nil]

namespace Path

variable {base p : Path}

/-- The names in a row of characters. -/
def namesIn (cs : List Char) : List String :=
  ((Text.splitWhere (· == '/') cs).filter (!·.isEmpty)).map String.ofList

theorem namesIn_append_slash (before after : List Char) :
    namesIn (before ++ '/' :: after) = namesIn before ++ namesIn after := by
  have split := @Text.splitWhere_append (· == '/') '/' rfl before after
  rw [namesIn, split, List.filter_append, List.map_append, namesIn, namesIn]

/-- A slash stands between the two parts of a joined path, unless there is no first part or it ends
in one. -/
theorem chars_join (base : Path) (h : p.isAbsolute = false) :
    base.chars = [] ∧ (base.join p).chars = p.chars ∨
      ∃ before, (base.chars = before ++ ['/'] ∨ base.chars = before ∧ before ≠ []) ∧
        (base.join p).chars = before ++ '/' :: p.chars := by
  unfold join
  rw [if_neg (by simp [h])]
  split
  next slash =>
    rw [Bool.or_eq_true, String.isEmpty_iff, decide_eq_true_eq] at slash
    rcases slash with empty | slash
    · exact .inl (by simp [chars, empty])
    · obtain ⟨before, hb⟩ := List.getLast?_eq_some_iff.1 slash
      refine .inr ⟨before, .inl hb, ?_⟩
      have : base.text.toList = before ++ ['/'] := hb
      simp [chars, this]
  next noSlash =>
    have : base.chars ≠ [] := by
      intro empty
      simp_all [chars]
    exact .inr ⟨base.chars, .inr ⟨rfl, this⟩, by simp [chars]⟩

/-- What a joined path starts with does not depend on its second part. -/
theorem exists_join_eq (base : Path) :
    ∃ opening, ∀ {p : Path}, p.isAbsolute = false → base.join p = ⟨opening ++ p.text⟩ := by
  by_cases slash : (base.text.isEmpty || base.chars.getLast? = some '/') = true
  · exact ⟨base.text, fun relative => by rw [join, if_neg (by simp [relative]), if_pos slash]⟩
  · refine ⟨base.text ++ "/", fun relative => ?_⟩
    rw [join, if_neg (by simp [relative]), if_neg slash]

theorem size_le_join (base : Path) (h : p.isAbsolute = false) :
    base.text.utf8ByteSize ≤ (base.join p).text.utf8ByteSize := by
  rw [join, h]
  simp only [Bool.false_eq_true, if_false]
  split <;> simp only [String.utf8ByteSize_append] <;> omega

theorem names_join (h : p.isAbsolute = false) : (base.join p).names = base.names ++ p.names := by
  change namesIn _ = namesIn _ ++ namesIn _
  rcases chars_join base h with ⟨empty, joined⟩ | ⟨before, hb, joined⟩
  · rw [empty, joined]
    rfl
  · rw [joined, namesIn_append_slash]
    rcases hb with hb | ⟨rfl, _⟩
    · rw [hb, namesIn_append_slash]
      simp [namesIn, Text.splitWhere]
    · rfl

theorem isAbsolute_join (h : p.isAbsolute = false) :
    (base.join p).isAbsolute = base.isAbsolute := by
  unfold isAbsolute at h ⊢
  rcases chars_join base h with ⟨empty, joined⟩ | ⟨before, hb, joined⟩
  · rw [joined, empty, h]
    rfl
  · rw [joined]
    rcases hb with hb | ⟨hb, nonempty⟩
    · rw [hb]
      cases before <;> rfl
    · obtain ⟨c, before, rfl⟩ := List.exists_cons_of_ne_nil nonempty
      rw [hb]
      rfl

theorem getLast?_chars_join (h : p.isAbsolute = false) (nonempty : p.chars ≠ []) :
    (base.join p).chars.getLast? = p.chars.getLast? := by
  rcases chars_join base h with ⟨_, joined⟩ | ⟨before, _, joined⟩
  · rw [joined]
  · rw [joined]
    grind

/-- A path begins with another one: it starts where that starts, and has its components first. -/
def StartsWith (p base : Path) : Prop :=
  p.isAbsolute = base.isAbsolute ∧ base.components <+: p.components

/-- A relative path behind another one leaves that in front. -/
theorem startsWith_join (base : Path) (h : p.isAbsolute = false) :
    (base.join p).StartsWith base := by
  refine ⟨isAbsolute_join h, ?_⟩
  unfold components
  rw [names_join h, isAbsolute_join h]
  cases base.names with
  | nil => exact List.nil_prefix
  | cons name rest =>
    simp only [List.cons_append, List.filter_append]
    split
    · exact List.prefix_append _ _
    · exact List.prefix_append (name :: _) _

/-! ## File names -/

theorem mem_names_of_mem_components {name : String} (h : name ∈ p.components) : name ∈ p.names := by
  unfold components at h
  grind

theorem fileName?_ne_empty : p.fileName? ≠ some "" := by
  intro empty
  rw [fileName?, Option.filter_eq_some_iff] at empty
  have mem := mem_names_of_mem_components (List.mem_of_getLast? empty.1)
  exact (isName_of_mem_names mem).nonempty rfl

/-- The last name of a path is its file name, unless it is made of dots. -/
theorem fileName?_of_names {front : List String} {name : String} (h : p.names = front ++ [name])
    (dot : name ≠ ".") (dots : name ≠ "..") : p.fileName? = some name := by
  have last : p.components.getLast? = some name := by
    unfold components
    rw [h]
    cases front with
    | nil => simp [dot]
    | cons first front =>
      have kept : (front ++ [name]).filter (· != ".") = front.filter (· != ".") ++ [name] := by
        simp [List.filter_append, dot]
      simp only [List.cons_append, kept]
      split
      · exact List.getLast?_concat
      · rw [← List.cons_append, List.getLast?_concat]
  rw [fileName?, last]
  simp [dot, dots]

end Path

/-! ## Ways -/

/-- To go along names in two parts is to go along the first ones and then along the others. -/
theorem FileTree.walk_append (t : FileTree) (place : Location) (front back : List String) :
    t.walk place (front ++ back) = (t.walk place front).bind fun l => t.walk l back := by
  induction front generalizing place with
  | nil => rfl
  | cons name front ih => grind [walk, Except.bind]

end SiteManifest
