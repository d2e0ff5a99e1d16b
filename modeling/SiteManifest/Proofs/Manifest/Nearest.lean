import Mathlib.Data.List.Find
import SiteManifest.Proofs.Manifest.Search

/-!
# The nearest manifest

A search for names goes outwards one directory at a time. It stops at the first directory in which
one of the names leads to a file, and there the first of these names is taken, so a near file goes
before a far one whatever their names are.

## Main definitions

* `Search.Nearest`: the innermost of the places around a place that have some property.
* `Search.HasFile`: in a directory some of the names lead to files.
* `Search.FirstFile`: the first name that leads to a file in a directory.

## Main statements

* `Search.find?_pathOf`: one step of a search.
* `Search.find?_eq_some_iff`: what a whole search finds.
* `Manifest.find?_eq_nearest`: the search for a manifest, from a directory and from inside of it.
-/
namespace SiteManifest

variable {fs : FileSystem} {place inner l : Location}

namespace FileSystem

theorem parent?_pathOf_nil : (pathOf []).parent? = none := by
  rw [Path.parent?, components_pathOf properPlace_nil]
  rfl

/-- The directory around a place is the parent of its path. -/
theorem parent?_pathOf_cons {name : String} (proper : ProperPlace (name :: place)) :
    (pathOf (name :: place)).parent? = some (pathOf place) := by
  rw [Path.parent?, components_pathOf proper, isAbsolute_pathOf, List.reverse_cons,
    List.dropLast_concat, if_neg (by simp), pathOf]

/-- Where an absolute path leads does not depend on the current directory. -/
theorem kind?_seenFrom (fs : FileSystem) (proper : ProperPlace place) {p : Path}
    (h : p.isAbsolute = true) : (fs.seenFrom place proper).kind? p = fs.kind? p := by
  simp only [kind?, entry?, resolve, start, seenFrom, h, if_true]

end FileSystem

namespace Search

/-- The innermost of all places around a place that have a property. -/
def Nearest (has : Location → Prop) (place l : Location) : Prop :=
  l <:+ place ∧ has l ∧ ∀ other, other <:+ place → has other → other <:+ l

/-- In a directory some of the names lead to files. -/
def HasFile (kind : Path → Option Kind) (names : List Path) (l : Location) : Prop :=
  ∃ n ∈ names, kind ((FileSystem.pathOf l).join n) = some .file

/-- The first of the names that leads to a file in a directory. -/
def FirstFile (kind : Path → Option Kind) (names : List Path) (l : Location) (n : Path) : Prop :=
  ∃ before after, names = before ++ n :: after ∧
    kind ((FileSystem.pathOf l).join n) = some .file ∧
    ∀ m ∈ before, kind ((FileSystem.pathOf l).join m) ≠ some .file

/-- The search in a single directory. -/
def inDirectory (kind : Path → Option Kind) (names : List Path) (l : Location) : Option Path :=
  (names.map (FileSystem.pathOf l).join).find? fun p => kind p = some .file

variable {kind : Path → Option Kind} {names : List Path} {name : String} {p : Path}

/-! ## Nearest places -/

theorem nearest_nil_iff {has : Location → Prop} : Nearest has [] l ↔ l = [] ∧ has [] := by
  constructor
  · rintro ⟨outer, here, _⟩
    obtain rfl := List.suffix_nil.1 outer
    exact ⟨rfl, here⟩
  · rintro ⟨rfl, here⟩
    exact ⟨List.suffix_rfl, here, fun _ outer _ => outer⟩

theorem nearest_self_iff {has : Location → Prop} (here : has place) :
    Nearest has place l ↔ l = place := by
  constructor
  · rintro ⟨outer, _, nearest⟩
    exact outer.eq_of_length_le (nearest place List.suffix_rfl here).length_le
  · rintro rfl
    exact ⟨List.suffix_rfl, here, fun _ outer _ => outer⟩

theorem nearest_cons_iff {has : Location → Prop} (here : ¬has (name :: place)) :
    Nearest has (name :: place) l ↔ Nearest has place l := by
  have around {q : Location} (hq : has q) : q <:+ name :: place ↔ q <:+ place := by
    rw [List.suffix_cons_iff]
    exact or_iff_right fun same => here (same ▸ hq)
  constructor
  · rintro ⟨outer, hl, nearest⟩
    exact ⟨(around hl).1 outer, hl, fun q hq has => nearest q ((around has).2 hq) has⟩
  · rintro ⟨outer, hl, nearest⟩
    exact ⟨(around hl).2 outer, hl, fun q hq has => nearest q ((around has).1 hq) has⟩

/-! ## A single directory -/

theorem inDirectory_eq_none_iff : inDirectory kind names l = none ↔ ¬HasFile kind names l := by
  simp [inDirectory, HasFile]

theorem inDirectory_eq_some_iff :
    inDirectory kind names l = some p ↔
      ∃ n, FirstFile kind names l n ∧ p = (FileSystem.pathOf l).join n := by
  rw [inDirectory, List.find?_map, Option.map_eq_some_iff]
  simp only [List.find?_eq_some_iff_append, FirstFile]
  constructor
  · rintro ⟨n, ⟨file, before, after, rfl, others⟩, rfl⟩
    exact ⟨n, ⟨before, after, rfl, by simpa using file, by simpa using others⟩, rfl⟩
  · rintro ⟨n, ⟨before, after, rfl, file, others⟩, rfl⟩
    exact ⟨n, ⟨by simpa using file, before, after, rfl, by simpa using others⟩, rfl⟩

theorem hasFile_of_inDirectory (h : inDirectory kind names l = some p) : HasFile kind names l := by
  by_contra no
  rw [inDirectory_eq_none_iff.2 no] at h
  contradiction

/-! ## A whole search -/

theorem find?_of_absolute {before after : List Path} (names_eq : names = before ++ p :: after)
    (relative : ∀ n ∈ before, n.isAbsolute = false) (absolute : p.isAbsolute = true)
    (directory : Path) :
    find? kind directory names = if (kind p).isSome then some p else none := by
  have first : names.find? Path.isAbsolute = some p := by
    rw [List.find?_eq_some_iff_append]
    exact ⟨absolute, before, after, names_eq, by simpa using relative⟩
  rw [find?, first]

/-- A search looks at the directory that it is in, and if no name leads to a file there, it goes on
in the parent of this directory, as long as there is one. -/
theorem find?_pathOf (relative : ∀ n ∈ names, n.isAbsolute = false) (proper : ProperPlace place) :
    find? kind (FileSystem.pathOf place) names =
      (inDirectory kind names place).or
        ((FileSystem.pathOf place).parent?.bind fun d => find? kind d names) := by
  rw [find?_of_relative relative, candidates_pathOf proper]
  cases place with
  | nil =>
    rw [List.tails, List.flatMap_singleton, FileSystem.parent?_pathOf_nil, Option.bind_none,
      Option.or_none, inDirectory]
  | cons name place =>
    have outer := (properPlace_cons_iff.1 proper).2
    rw [FileSystem.parent?_pathOf_cons proper, Option.bind_some, find?_of_relative relative,
      candidates_pathOf outer, List.tails, List.flatMap_cons, List.find?_append, inDirectory]

theorem find?_pathOf_nil (relative : ∀ n ∈ names, n.isAbsolute = false) :
    find? kind (FileSystem.pathOf []) names = inDirectory kind names [] := by
  rw [find?_pathOf relative properPlace_nil, FileSystem.parent?_pathOf_nil, Option.bind_none,
    Option.or_none]

theorem find?_pathOf_cons (relative : ∀ n ∈ names, n.isAbsolute = false)
    (proper : ProperPlace (name :: place)) :
    find? kind (FileSystem.pathOf (name :: place)) names =
      (inDirectory kind names (name :: place)).or (find? kind (FileSystem.pathOf place) names) := by
  rw [find?_pathOf relative proper, FileSystem.parent?_pathOf_cons proper, Option.bind_some]

/-- A search ends in the nearest directory in which a name leads to a file. -/
theorem find?_eq_some_iff (relative : ∀ n ∈ names, n.isAbsolute = false)
    (proper : ProperPlace place) :
    find? kind (FileSystem.pathOf place) names = some p ↔
      ∃ l, Nearest (HasFile kind names) place l ∧ inDirectory kind names l = some p := by
  induction place with
  | nil =>
    rw [find?_pathOf_nil relative]
    constructor
    · intro found
      exact ⟨[], nearest_nil_iff.2 ⟨rfl, hasFile_of_inDirectory found⟩, found⟩
    · rintro ⟨l, nearest, found⟩
      obtain ⟨rfl, _⟩ := nearest_nil_iff.1 nearest
      exact found
  | cons name place ih =>
    rw [find?_pathOf_cons relative proper]
    by_cases here : HasFile kind names (name :: place)
    · obtain ⟨q, found⟩ :=
        Option.ne_none_iff_exists'.1 (mt inDirectory_eq_none_iff.1 (not_not.2 here))
      simp only [nearest_self_iff here, exists_eq_left, found, Option.some_or]
    · rw [inDirectory_eq_none_iff.2 here, Option.none_or, ih (properPlace_cons_iff.1 proper).2]
      simp only [nearest_cons_iff here]

theorem find?_eq_none_iff (relative : ∀ n ∈ names, n.isAbsolute = false)
    (proper : ProperPlace place) :
    find? kind (FileSystem.pathOf place) names = none ↔
      ∀ l, l <:+ place → ¬HasFile kind names l := by
  induction place with
  | nil => simp [find?_pathOf_nil relative, inDirectory_eq_none_iff]
  | cons name place ih =>
    rw [find?_pathOf_cons relative proper, Option.or_eq_none_iff, inDirectory_eq_none_iff,
      ih (properPlace_cons_iff.1 proper).2]
    simp [List.suffix_cons_iff]

/-- Directories without files of the names do not stop a search. -/
theorem find?_inner (proper : ProperPlace inner) (inside : place <:+ inner)
    (between : ∀ l, l <:+ inner → HasFile kind names l → l <:+ place) :
    find? kind (FileSystem.pathOf inner) names = find? kind (FileSystem.pathOf place) names := by
  -- An absolute name is looked for in the same way from everywhere.
  by_cases relative : ∀ n ∈ names, n.isAbsolute = false
  case neg =>
    cases first : names.find? Path.isAbsolute with
    | some p => simp only [find?, first]
    | none => exact absurd (by simpa using first) relative
  induction inner with
  | nil => rw [List.suffix_nil.1 inside]
  | cons name inner ih =>
    rcases List.suffix_cons_iff.1 inside with rfl | inside
    · rfl
    · have empty : ¬HasFile kind names (name :: inner) := by
        intro has
        have longer := (between _ List.suffix_rfl has).length_le
        exact absurd (longer.trans inside.length_le) (by simp)
      rw [find?_pathOf_cons relative proper, inDirectory_eq_none_iff.2 empty, Option.none_or]
      exact ih (properPlace_cons_iff.1 proper).2 inside fun l outer =>
        between l (outer.trans (List.suffix_cons _ _))

/-! ## Other current directories -/

theorem isAbsolute_of_mem_candidates (proper : ProperPlace place)
    (h : p ∈ candidates (FileSystem.pathOf place) names) : p.isAbsolute = true := by
  rw [candidates_pathOf proper, List.mem_flatMap] at h
  obtain ⟨l, _, inDirectory⟩ := h
  obtain ⟨n, _, rfl⟩ := List.mem_map.1 inDirectory
  cases absolute : n.isAbsolute with
  | false => rw [Path.isAbsolute_join absolute, FileSystem.isAbsolute_pathOf]
  | true => rw [Path.join, if_pos absolute, absolute]

/-- A search only looks at absolute paths. -/
theorem find?_congr {other : Path → Option Kind} (proper : ProperPlace place)
    (same : ∀ p : Path, p.isAbsolute = true → kind p = other p) :
    find? kind (FileSystem.pathOf place) names = find? other (FileSystem.pathOf place) names := by
  unfold find?
  split
  next p first => rw [same p (List.find?_some first)]
  next =>
    refine List.find?_congr fun p hp => ?_
    rw [same p (isAbsolute_of_mem_candidates proper hp)]

end Search

/-! ## The search for a manifest -/

namespace Manifest

/-- The search for a manifest. The first absolute name is taken if there is something at it, and no
other path is looked for then. Relative names are looked for in the nearest of all directories
around the current one in which one of them leads to a file; the first such name in the list is
taken, and nothing is found exactly if there is no such directory. So a search from further inside
finds the same, if no directory in between has a file of the names. -/
theorem find?_eq_nearest (fs : FileSystem) (names : List Path) :
    (∀ before p after, names = before ++ p :: after →
      (∀ n ∈ before, n.isAbsolute = false) → p.isAbsolute = true →
      (Manifest.find? (m := StateM FileSystem) names).run fs =
        (if (fs.kind? p).isSome then some p else none, fs)) ∧
    ((∀ n ∈ names, n.isAbsolute = false) →
      ((Manifest.find? (m := StateM FileSystem) names).run fs).2 = fs ∧
      (∀ found, ((Manifest.find? (m := StateM FileSystem) names).run fs).1 = some found ↔
        ∃ l n, Search.Nearest (Search.HasFile fs.kind? names) fs.here l ∧
          Search.FirstFile fs.kind? names l n ∧ found = (FileSystem.pathOf l).join n) ∧
      (((Manifest.find? (m := StateM FileSystem) names).run fs).1 = none ↔
        ∀ l, l <:+ fs.here → ¬Search.HasFile fs.kind? names l)) ∧
    ∀ inner (proper : ProperPlace inner), fs.here <:+ inner →
      (∀ l, l <:+ inner → Search.HasFile fs.kind? names l → l <:+ fs.here) →
      ((Manifest.find? (m := StateM FileSystem) names).run (fs.seenFrom inner proper)).1 =
        ((Manifest.find? (m := StateM FileSystem) names).run fs).1 := by
  refine ⟨fun before p after names_eq relative absolute => ?_, fun relative => ⟨rfl, ?_, ?_⟩, ?_⟩
  · rw [run_find?, Search.find?_of_absolute names_eq relative absolute]
  · intro found
    rw [run_find?, FileSystem.currentDirectory, Search.find?_eq_some_iff relative fs.proper]
    simp only [Search.inDirectory_eq_some_iff, exists_and_left]
  · rw [run_find?, FileSystem.currentDirectory, Search.find?_eq_none_iff relative fs.proper]
  · intro inner proper inside between
    rw [run_find?, run_find?]
    change Search.find? _ (FileSystem.pathOf inner) names =
      Search.find? _ (FileSystem.pathOf fs.here) names
    rw [Search.find?_congr proper fun p => fs.kind?_seenFrom proper]
    exact Search.find?_inner proper inside between

/-- A site in `/site` whose directory `/site/docs` has a directory with the name of a manifest. -/
def decoy : FileSystem where
  tree :=
    { entry := fun place =>
        if place = [] ∨ place = ["site"] ∨ place = ["docs", "site"] ∨
          place = ["docsite.toml", "docs", "site"] then some .directory
        else if place = ["docsite.json", "site"] then some (.file .empty)
        else none
      root := by simp
      parent := by grind }
  here := ["docs", "site"]
  proper := by decide +kernel

/-- From `/site/docs` and from inside of it the manifest in `/site` is found, though its name comes
second, and an absolute name is taken even if it is that of a directory. -/
theorem decoy_find?_eq_nearest :
    ((Manifest.find? (m := StateM FileSystem) Program.usualNames).run decoy).1 =
        some ⟨"/site/docsite.json"⟩ ∧
      ((Manifest.find? (m := StateM FileSystem) Program.usualNames).run
        (decoy.seenFrom ["guides", "docs", "site"] (by decide +kernel))).1 =
          some ⟨"/site/docsite.json"⟩ ∧
      (Manifest.find? (m := StateM FileSystem) [⟨"docsite.json"⟩, ⟨"/site/docs"⟩]).run decoy =
        (some ⟨"/site/docs"⟩, decoy) := by
  have relative : ∀ n ∈ Program.usualNames, n.isAbsolute = false := by decide +kernel
  have files : ∀ l ∈ ["guides", "docs", "site"].tails,
      (∃ n ∈ Program.usualNames, decoy.kind? ((FileSystem.pathOf l).join n) = some .file) →
        l = ["site"] := by decide +kernel
  have has : Search.HasFile decoy.kind? Program.usualNames ["site"] :=
    ⟨⟨"docsite.json"⟩, by decide +kernel, by decide +kernel⟩
  have only {l : Location} (outer : l <:+ ["guides", "docs", "site"])
      (here : Search.HasFile decoy.kind? Program.usualNames l) : l = ["site"] :=
    files l ((List.mem_tails _ _).2 outer) here
  have inside : decoy.here <:+ ["guides", "docs", "site"] := List.suffix_cons _ _
  have nearby : Search.Nearest (Search.HasFile decoy.kind? Program.usualNames) decoy.here ["site"] :=
    ⟨List.suffix_cons _ _, has, fun l outer here =>
      only (outer.trans inside) here ▸ List.suffix_rfl⟩
  obtain ⟨_, nearest, same⟩ := find?_eq_nearest decoy Program.usualNames
  have found := ((nearest relative).2.1 ⟨"/site/docsite.json"⟩).2
    ⟨["site"], ⟨"docsite.json"⟩, nearby,
      ⟨[⟨"docsite.toml"⟩], [], by decide +kernel, by decide +kernel, by decide +kernel⟩,
      by decide +kernel⟩
  have deeper := same ["guides", "docs", "site"] (by decide +kernel) inside
    fun l outer here => only outer here ▸ List.suffix_cons _ _
  have taken := (find?_eq_nearest decoy [⟨"docsite.json"⟩, ⟨"/site/docs"⟩]).1
    [⟨"docsite.json"⟩] ⟨"/site/docs"⟩ [] rfl (by decide +kernel) (by decide +kernel)
  have there : (decoy.kind? ⟨"/site/docs"⟩).isSome = true := by decide +kernel
  rw [if_pos there] at taken
  exact ⟨found, deeper.trans found, taken⟩

end Manifest

end SiteManifest
