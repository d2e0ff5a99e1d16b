import SiteManifest.Text.Split

/-!
# Paths

A path is kept as it was written. What it says is a row of components, for which repeated slashes
and dots between them do not count. Paths and the names in them are text; a name on a disk whose
bytes are no text has no path here.
-/
namespace SiteManifest

open Text

structure Path where
  text : String
  deriving DecidableEq, Repr

namespace Path

def chars (p : Path) : List Char := p.text.toList

def isAbsolute (p : Path) : Bool := p.chars.head? == some '/'

/-- The names between slashes, dots among them. -/
def names (p : Path) : List String :=
  ((splitWhere (· == '/') p.chars).filter (!·.isEmpty)).map String.ofList

/-- The names that count. A single dot does at the very start only. -/
def components (p : Path) : List String :=
  match p.names with
  | [] => []
  | name :: rest =>
    let rest := rest.filter (· != ".")
    if name == "." && p.isAbsolute then rest else name :: rest

/-- The path that components spell. -/
def ofComponents (isAbsolute : Bool) (components : List String) : Path :=
  ⟨(if isAbsolute then "/" else "") ++ "/".intercalate components⟩

/-- A path read from the place of another one. An absolute path stays what it is. -/
def join (base p : Path) : Path :=
  if p.isAbsolute then p
  else if base.text.isEmpty || base.chars.getLast? = some '/' then ⟨base.text ++ p.text⟩
  else ⟨base.text ++ "/" ++ p.text⟩

/-- The path one component shorter, unless there is none to drop. -/
def parent? (p : Path) : Option Path :=
  if p.components.isEmpty then none
  else some (ofComponents p.isAbsolute p.components.dropLast)

/-- Rows of names that lose one after the other, the first one first. -/
def outward : List String → List (List String)
  | [] => [[]]
  | name :: names => (name :: names) :: outward names

/-- The path and all its parents, the longest first. -/
def ancestors (p : Path) : List Path :=
  (outward p.components.reverse).map fun names => ofComponents p.isAbsolute names.reverse

/-- The last component, if it is a name. -/
def fileName? (p : Path) : Option String :=
  p.components.getLast?.filter fun name => name ≠ "." && name ≠ ".."

/-- The part of a file name behind its last point, which does not stand at the start. -/
def extension? (p : Path) : Option String :=
  p.fileName?.bind fun name =>
    match (splitWhere (· == '.') name.toList).reverse with
    | [] | [_] | [_, []] => none
    | last :: _ => some (String.ofList last)

/-! ## Names -/

/-- A name as it can stand between slashes. -/
structure IsName (name : String) : Prop where
  nonempty : name ≠ ""
  noSlash : '/' ∉ name.toList

theorem isName_of_mem_names {p : Path} {name : String} (h : name ∈ p.names) : IsName name := by
  simp only [names, List.mem_map, List.mem_filter, Bool.not_eq_true',
    List.isEmpty_eq_false_iff] at h
  obtain ⟨cs, ⟨part, nonempty⟩, rfl⟩ := h
  refine ⟨by simpa using nonempty, fun slash => ?_⟩
  rw [String.toList_ofList] at slash
  simpa using not_isSeparator_of_mem part slash

/-- The characters of a name are characters of the path. -/
theorem mem_chars_of_mem_names {p : Path} {name : String} {c : Char} (h : name ∈ p.names)
    (hc : c ∈ name.toList) : c ∈ p.chars := by
  simp only [names, List.mem_map, List.mem_filter] at h
  obtain ⟨cs, ⟨part, _⟩, rfl⟩ := h
  rw [String.toList_ofList] at hc
  exact mem_of_mem_splitWhere part hc

end Path

end SiteManifest
