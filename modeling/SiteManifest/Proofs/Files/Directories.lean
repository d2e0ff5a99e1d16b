import SiteManifest.Proofs.Files.Places
import SiteManifest.Proofs.Files.Writing

/-!
# Directories on the way

Making a directory makes it and those that it lies in. So nothing new is deeper in the tree than the
directory that was asked for, and all that is new are directories on the way to it, even if making
them fails half way.

## Main definitions

* `FileTree.AddsUpTo`: what one tree has and another has not is at most so deep.
* `FileSystem.depth`: how deep the place of a path lies.
* `FileSystem.Opens`: what was there is there, and the rest are directories that paths lead to.

## Main statements

* `FileSystem.createDirectories_of_resolve`: a directory that is there is left as it is.
* `FileSystem.addsUpTo_createDirectories`: how deep the new directories are.
* `FileSystem.opens_createDirectories`: where the new directories are.
-/
namespace SiteManifest

variable {place : Location} {n : Nat}

namespace FileTree

variable {t u v : FileTree}

/-- Whatever is only in the second tree has at most so many names. -/
def AddsUpTo (n : Nat) (t u : FileTree) : Prop :=
  ∀ place, u.entry place ≠ none → t.entry place ≠ none ∨ place.length ≤ n

theorem AddsUpTo.refl (n : Nat) (t : FileTree) : t.AddsUpTo n t := fun _ => .inl

theorem AddsUpTo.trans (h : t.AddsUpTo n u) (h' : u.AddsUpTo n v) : t.AddsUpTo n v := by
  intro place found
  rcases h' place found with before | short
  · exact h place before
  · exact .inr short

theorem addsUpTo_addDirectory {name : String} (inside : t.entry place = some .directory)
    (deep : place.length + 1 ≤ n) : t.AddsUpTo n (t.addDirectory name place inside) := by
  intro l found
  by_cases new : l = name :: place
  · exact .inr (by simpa [new] using deep)
  · have kept : t.set (name :: place) (some .directory) l = t.entry l := set_of_ne new
    exact .inl (kept ▸ found)

end FileTree

namespace FileSystem

variable {fs made : FileSystem} {p q : Path}

/-- How many names lead from the root to the place of a path that does not go back. -/
def depth (fs : FileSystem) (p : Path) : Nat :=
  (fs.start p).length + (p.names.filter (· != ".")).length

theorem depth_eq_of_here (same : made.here = fs.here) (p : Path) : made.depth p = fs.depth p := by
  rw [depth, start, same, depth, start]

theorem length_of_walk {t : FileTree} (onwards : ".." ∉ p.names)
    (ok : t.walk (fs.start p) p.names = .ok place) : place.length = fs.depth p := by
  rw [FileTree.eq_of_walk onwards ok, depth, List.length_append, List.length_reverse, Nat.add_comm]

theorem addsUpTo_makeDirectory (onwards : ".." ∉ p.names) (h : fs.makeDirectory p = .ok made)
    (deep : fs.depth p ≤ n) : fs.tree.AddsUpTo n made.tree := by
  obtain ⟨name, place, inside, last, way, can, _, rfl⟩ := exists_of_makeDirectory h
  obtain ⟨_, ok⟩ := container_eq_ok_iff.1 way
  have names := names_eq_of_getLast? last
  have onwards : ".." ∉ p.names.dropLast := fun mem => onwards (List.mem_of_mem_dropLast mem)
  refine FileTree.addsUpTo_addDirectory inside (Nat.le_trans (Nat.le_of_eq ?_) deep)
  rw [FileTree.eq_of_walk onwards ok, depth, names]
  simp [can.1]
  omega

/-- No directory that is made is deeper than the deepest one that is asked for. -/
theorem addsUpTo_makeFirst {paths : List Path}
    (h : ∀ p ∈ paths, ".." ∉ p.names ∧ fs.depth p ≤ n) :
    fs.tree.AddsUpTo n (fs.makeFirst paths).1.tree := by
  refine (makeFirst_preserves
    (fun made => fs.tree.AddsUpTo n made.tree ∧ made.here = fs.here) ⟨.refl n _, rfl⟩ ?_).1
  intro p mem before made ⟨adds, here⟩ ok
  obtain ⟨onwards, deep⟩ := h p mem
  have deep : before.depth p ≤ n := (depth_eq_of_here here p).trans_le deep
  exact ⟨adds.trans (addsUpTo_makeDirectory onwards ok deep), (grows_makeDirectory ok).2.trans here⟩

end FileSystem

/-! ## Directories that are there -/

namespace FileSystem

variable {fs : FileSystem} {p : Path}

/-- What is there cannot be made, and not because something on the way is missing. -/
theorem makeDirectory_of_resolve (leads : fs.resolve p = .ok place) :
    ∃ e, fs.makeDirectory p = .error e ∧ e ≠ .notFound := by
  obtain ⟨noError, ok⟩ := resolve_eq_ok_iff.1 leads
  cases last : p.names.getLast? with
  | none =>
    have way : fs.container p = .ok (fs.start p) := by
      rw [container_eq_ok_iff, List.getLast?_eq_none_iff.1 last]
      exact ⟨noError, rfl⟩
    exact ⟨.alreadyExists, by rw [makeDirectory, way, last], by decide⟩
  | some name =>
    rw [names_eq_of_getLast? last, List.append_assoc, FileTree.walk_append] at ok
    cases walked : fs.tree.walk (fs.start p) p.names.dropLast with
    | error e => simp [walked, Except.bind] at ok
    | ok outer =>
      rw [walked, Except.bind] at ok
      obtain ⟨next, step, _⟩ := FileTree.walk_cons_eq_ok_iff.1 ok
      have way : fs.container p = .ok outer := container_eq_ok_iff.2 ⟨noError, walked⟩
      unfold makeDirectory
      rw [way, last]
      simp only
      split
      · split
        · exact ⟨_, rfl, by decide⟩
        next noDots =>
          split
          · exact ⟨_, rfl, by decide⟩
          · split
            · exact ⟨_, rfl, by decide⟩
            next free =>
              -- Where nothing has the name, the path leads nowhere.
              unfold FileTree.step? at step
              simp_all
      · exact ⟨_, rfl, by decide⟩

theorem createDirectories_of_resolve (leads : fs.resolve p = .ok place)
    (directory : fs.tree.entry place = some .directory) :
    fs.createDirectories p = (fs, .ok ()) := by
  obtain ⟨e, failed, other⟩ := makeDirectory_of_resolve leads
  have kind : fs.kind? p = some .directory := by
    rw [kind?, entry?, leads]
    simp only
    rw [directory]
    rfl
  rw [createDirectories, makeFirst, failed]
  cases e <;> simp_all

end FileSystem

/-! ## The directories around a path -/

namespace Path

variable {p q : Path}

theorem filter_components (p : Path) :
    p.components.filter (· != ".") = p.names.filter (· != ".") := by
  unfold components
  cases p.names with
  | nil => rfl
  | cons name rest =>
    by_cases dot : name = "." <;> cases p.isAbsolute <;> simp [dot]

theorem exists_isPrefix_of_mem_ancestors (h : q ∈ p.ancestors) :
    ∃ front, front <+: p.components ∧ q = ofComponents p.isAbsolute front := by
  simp only [ancestors, outward_eq_tails, List.mem_map, List.mem_tails] at h
  obtain ⟨outer, suffix, rfl⟩ := h
  exact ⟨outer.reverse, by simpa using List.reverse_prefix.2 suffix, rfl⟩

end Path

namespace FileSystem

variable {fs made : FileSystem} {p q : Path}

/-- A directory around a path is not deeper, and its path does not go back either. -/
theorem depth_le_of_mem_ancestors (onwards : ".." ∉ p.names) (h : q ∈ p.ancestors) :
    ".." ∉ q.names ∧ fs.depth q ≤ fs.depth p := by
  obtain ⟨front, isPrefix, rfl⟩ := Path.exists_isPrefix_of_mem_ancestors h
  have inNames : ∀ name ∈ front, name ∈ p.names := fun name mem =>
    Path.mem_names_of_mem_components (isPrefix.subset mem)
  have isName : ∀ name ∈ front, Path.IsName name := fun name mem =>
    Path.isName_of_mem_names (inNames name mem)
  have fewer := (isPrefix.sublist.filter (· != ".")).length_le
  rw [Path.filter_components] at fewer
  rw [depth, depth, start, start, Path.names_ofComponents _ isName,
    Path.isAbsolute_ofComponents _ isName]
  exact ⟨fun back => onwards (inNames _ back), Nat.add_le_add_left fewer _⟩

/-- Making a directory adds nothing that is deeper than this directory. -/
theorem addsUpTo_createDirectories (onwards : ".." ∉ p.names) :
    fs.tree.AddsUpTo (fs.depth p) (fs.createDirectories p).1.tree := by
  refine addsUpTo_makeFirst fun q mem => ?_
  rcases List.mem_cons.1 mem with rfl | mem
  · exact ⟨onwards, Nat.le_refl _⟩
  · exact depth_le_of_mem_ancestors onwards (List.mem_of_mem_tail mem)

/-! ## What is new -/

/-- Where a path leads it still leads when more has been added. -/
theorem resolve_of_grows (grows : fs.tree.Grows made.tree) (here : made.here = fs.here)
    (leads : fs.resolve p = .ok place) : made.resolve p = .ok place := by
  obtain ⟨noError, ok⟩ := resolve_eq_ok_iff.1 leads
  have start : made.start p = fs.start p := by rw [start, here, start]
  rw [resolve_eq_ok_iff, start]
  exact ⟨noError, FileTree.walk_of_keepsPlaces grows.keepsPlaces ok⟩

/-- A directory stands where its name is looked up, with a slash behind it or without. -/
theorem resolve_of_last {name : String} (way : fs.container p = .ok place)
    (last : p.names.getLast? = some name) (can : FileTree.CanName name)
    (inside : fs.tree.entry place = some .directory)
    (directory : fs.tree.entry (name :: place) = some .directory) :
    fs.resolve p = .ok (name :: place) := by
  obtain ⟨noError, ok⟩ := container_eq_ok_iff.1 way
  have step := FileTree.walk_singleton can inside (by simp [directory])
  rw [resolve_eq_ok_iff, names_eq_of_getLast? last, FileTree.walk_append, FileTree.walk_append, ok,
    Except.bind, step, Except.bind]
  refine ⟨noError, ?_⟩
  split
  · simp [FileTree.walk, directory]
  · rfl

/-- What was there is there, and all that is new are directories that some of the paths lead to. -/
structure Opens (fs : FileSystem) (paths : List Path) (made : FileSystem) : Prop where
  grows : fs.tree.Grows made.tree
  here : made.here = fs.here
  new : ∀ place entry, fs.tree.entry place = none → made.tree.entry place = some entry →
    entry = .directory ∧ ∃ q ∈ paths, made.resolve q = .ok place

theorem Opens.refl (fs : FileSystem) (paths : List Path) : fs.Opens paths fs :=
  ⟨.refl _, rfl, fun place entry nothing found => by simp [nothing] at found⟩

theorem Opens.makeDirectory {paths : List Path} {after : FileSystem} (h : fs.Opens paths made)
    (mem : p ∈ paths) (ok : made.makeDirectory p = .ok after) : fs.Opens paths after := by
  obtain ⟨grows, here⟩ := grows_makeDirectory ok
  refine ⟨h.grows.trans grows, here.trans h.here, fun l entry nothing found => ?_⟩
  obtain ⟨name, place, inside, last, way, can, free, rfl⟩ := exists_of_makeDirectory ok
  by_cases same : l = name :: place
  · subst same
    have directory : (made.tree.addDirectory name place inside).entry (name :: place) =
        some .directory := FileTree.set_self
    have way' := container_eq_ok_iff.1 way
    refine ⟨Option.some.inj (found.symm.trans directory), p, mem, ?_⟩
    refine resolve_of_last (container_eq_ok_iff.2 ⟨way'.1, ?_⟩) last can
      (grows place _ inside) directory
    exact FileTree.walk_of_keepsPlaces grows.keepsPlaces way'.2
  · have before : made.tree.entry l = some entry := (FileTree.set_of_ne same).symm.trans found
    obtain ⟨directory, q, mem', leads⟩ := h.new l entry nothing before
    exact ⟨directory, q, mem', resolve_of_grows grows here leads⟩

/-- Making a directory adds nothing but directories on the way to it, even if it fails. -/
theorem opens_createDirectories (fs : FileSystem) (p : Path) :
    fs.Opens (p :: p.ancestors.tail) (fs.createDirectories p).1 :=
  makeFirst_preserves (fs.Opens (p :: p.ancestors.tail)) (.refl fs _)
    fun _ mem _ _ opens ok => opens.makeDirectory mem ok

end FileSystem

end SiteManifest
