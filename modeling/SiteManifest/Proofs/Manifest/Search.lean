import SiteManifest.Command.Run
import SiteManifest.Proofs.Command.Init
import SiteManifest.Proofs.Manifest.File

/-!
# Finding a manifest from its directory

A search looks at absolute paths. Such a path leads to the file of its name in its directory, as
long as it is short enough for the system to take it at all.

## Main statements

* `FileSystem.resolve_manifestPath_pathOf`: when an absolute path leads to a manifest.
* `Search.find?_usualNames_of_file`: the manifest of the directory itself is found first.
* `Search.exists_of_find?_usualNames`: what is found lies in the directory or around it.
-/
namespace SiteManifest

open Init

variable {fs : FileSystem} {place l : Location} {format : Format} {root : Path}

theorem FileSystem.pathError?_eq_none_iff {p : Path} :
    pathError? p = none ↔
      '\x00' ∉ p.chars ∧ p.text ≠ "" ∧ p.text.utf8ByteSize < maxPathBytes := by
  unfold pathError?
  split
  next nul => simp [nul]
  next noNul =>
    split
    next empty => simp_all
    next nonempty =>
      split
      next long => simp [Nat.not_lt.2 long]
      next short =>
        simp only [String.isEmpty_iff] at nonempty
        simp [noNul, nonempty, Nat.lt_of_not_le short]

theorem FileSystem.kind?_eq_some_file_iff {p : Path} :
    fs.kind? p = some .file ↔
      ∃ l content, fs.resolve p = .ok l ∧ fs.tree.entry l = some (.file content) := by
  unfold kind? entry?
  cases fs.resolve p with
  | error e => simp
  | ok l =>
    simp only [Option.map_eq_some_iff, Except.ok.injEq]
    constructor
    · rintro ⟨entry, found, kind⟩
      cases entry with
      | file content => exact ⟨l, content, rfl, found⟩
      | directory => contradiction
      | special device => contradiction
    · rintro ⟨_, content, rfl, found⟩
      exact ⟨_, found, rfl⟩

/-! ## Paths of manifests -/

namespace Init

theorem fileName_injective {other : Format} (h : format.fileName = other.fileName) :
    format = other := by
  cases format <;> cases other <;> first | rfl | exact absurd h (by decide)

/-- Manifests of both formats have names of one length, so a path that is good for one of them is
good for the other one. -/
theorem pathError?_manifestPath (root : Path) (format other : Format) :
    FileSystem.pathError? (manifestPath root format) =
      FileSystem.pathError? (manifestPath root other) := by
  have behind (opening : String) (format : Format) :
      FileSystem.pathError? ⟨opening ++ format.fileName⟩ =
        FileSystem.pathError? ⟨opening ++ "docsite.toml"⟩ := by
    cases format with
    | toml => rfl
    | json =>
      have sizes : "docsite.json".utf8ByteSize = "docsite.toml".utf8ByteSize := by decide +kernel
      simp [FileSystem.pathError?, Path.chars, Format.fileName, String.isEmpty, sizes]
  obtain ⟨opening, joined⟩ := root.exists_join_eq
  rw [manifestPath, manifestPath, joined (isAbsolute_fileName format),
    joined (isAbsolute_fileName other), behind, behind]

/-- The path of a manifest leads where its directory and its name lead. -/
theorem resolve_manifestPath_iff :
    fs.resolve (manifestPath root format) = .ok l ↔
      FileSystem.pathError? (manifestPath root format) = none ∧
        fs.tree.walk (fs.start root) (root.names ++ [format.fileName]) = .ok l := by
  rw [FileSystem.resolve_eq_ok_iff, start_manifestPath, names_manifestPath,
    endsInSlash_manifestPath, if_neg (by simp), List.append_nil]

end Init

namespace FileSystem

/-- The absolute path of a manifest in a proper place is refused only if it is too long. -/
theorem pathError?_manifestPath_pathOf (proper : ProperPlace l) :
    pathError? (manifestPath (pathOf l) format) = none ↔
      (manifestPath (pathOf l) format).text.utf8ByteSize < maxPathBytes := by
  have absolute : (manifestPath (pathOf l) format).isAbsolute = true := by
    rw [Path.isAbsolute_join (isAbsolute_fileName format), isAbsolute_pathOf]
  have nonempty : (manifestPath (pathOf l) format).text ≠ "" := by
    intro empty
    simp [Path.isAbsolute, Path.chars, empty] at absolute
  have noNul : '\x00' ∉ (manifestPath (pathOf l) format).chars := by
    intro nul
    rcases Path.chars_join (pathOf l) (isAbsolute_fileName format) with
      ⟨empty, _⟩ | ⟨front, hf, joined⟩
    · exact pathOf_nonempty l empty
    · rw [joined, List.mem_append, List.mem_cons] at nul
      rcases nul with inside | slash | last
      · have inside : '\x00' ∈ (pathOf l).chars := by
          rcases hf with hf | ⟨hf, _⟩ <;> simp [hf, inside]
        rcases Path.mem_chars_ofComponents inside with slash | ⟨name, mem, nul⟩
        · exact absurd slash (by decide)
        · exact (proper name (List.mem_reverse.1 mem)).noNul nul
      · exact absurd slash (by decide)
      · cases format <;> exact absurd last (by decide)
  rw [pathError?_eq_none_iff]
  exact ⟨fun h => h.2.2, fun short => ⟨noNul, nonempty, short⟩⟩

/-- From the root the names of a manifest in a proper place lead to it. -/
theorem resolve_manifestPath_pathOf_iff (proper : ProperPlace l) :
    fs.resolve (manifestPath (pathOf l) format) = .ok place ↔
      pathError? (manifestPath (pathOf l) format) = none ∧
        fs.tree.walk [] (l.reverse ++ [format.fileName]) = .ok place := by
  rw [resolve_manifestPath_iff, names_pathOf proper, start, isAbsolute_pathOf, if_pos rfl]

theorem eq_of_resolve_manifestPath_pathOf (proper : ProperPlace l)
    (h : fs.resolve (manifestPath (pathOf l) format) = .ok place) :
    place = format.fileName :: l := by
  obtain ⟨_, ok⟩ := (resolve_manifestPath_pathOf_iff proper).1 h
  have can : ∀ name ∈ l.reverse ++ [format.fileName], FileTree.CanName name := by
    intro name mem
    rcases List.mem_append.1 mem with mem | mem
    · exact (proper name (List.mem_reverse.1 mem)).can
    · exact List.mem_singleton.1 mem ▸ canName_fileName format
  have onwards : ".." ∉ l.reverse ++ [format.fileName] := fun mem => (can _ mem).2.1 rfl
  have kept : (l.reverse ++ [format.fileName]).filter (· != ".") =
      l.reverse ++ [format.fileName] :=
    List.filter_eq_self.2 fun name mem => by simpa using (can name mem).1
  rw [FileTree.eq_of_walk onwards ok, kept]
  simp

theorem resolve_manifestPath_pathOf (proper : ProperPlace l)
    (short : (manifestPath (pathOf l) format).text.utf8ByteSize < maxPathBytes)
    (found : fs.tree.entry (format.fileName :: l) ≠ none) :
    fs.resolve (manifestPath (pathOf l) format) = .ok (format.fileName :: l) := by
  have directory := fs.tree.parent _ l (Option.isSome_iff_ne_none.2 found)
  refine (resolve_manifestPath_pathOf_iff proper).2
    ⟨(pathError?_manifestPath_pathOf proper).2 short, ?_⟩
  rw [FileTree.walk_append, FileTree.walk_reverse proper directory, Except.bind]
  exact FileTree.walk_singleton (canName_fileName format) directory found

end FileSystem

/-! ## Searching -/

theorem Manifest.run_find? (names : List Path) (fs : FileSystem) :
    (Manifest.find? (m := StateM FileSystem) names).run fs =
      (Search.find? fs.kind? fs.currentDirectory names, fs) := rfl

namespace Search

/-- Relative names are looked for in the directory and around it. -/
theorem find?_of_relative {names : List Path} (relative : ∀ n ∈ names, n.isAbsolute = false)
    (kind : Path → Option Kind) (directory : Path) :
    find? kind directory names =
      (candidates directory names).find? fun p => kind p = some .file := by
  have none : names.find? Path.isAbsolute = none := by simpa using relative
  rw [find?, none]

/-- A search from a proper place looks there and then in every directory around it. -/
theorem candidates_pathOf (proper : ProperPlace place) (names : List Path) :
    candidates (FileSystem.pathOf place) names =
      place.tails.flatMap fun l => names.map (FileSystem.pathOf l).join := by
  rw [candidates, FileSystem.ancestors_pathOf proper, List.flatMap_map]

theorem candidates_usualNames (proper : ProperPlace place) :
    candidates (FileSystem.pathOf place) Program.usualNames =
      place.tails.flatMap fun l => manifests (FileSystem.pathOf l) :=
  candidates_pathOf proper Program.usualNames

theorem find?_usualNames (kind : Path → Option Kind) (directory : Path) :
    find? kind directory Program.usualNames =
      (candidates directory Program.usualNames).find? fun p => kind p = some .file :=
  find?_of_relative (by decide +kernel) kind directory

/-- What is found is a manifest in the directory or around it. -/
theorem exists_of_find?_usualNames (proper : ProperPlace place) {p : Path}
    (found : find? fs.kind? (FileSystem.pathOf place) Program.usualNames = some p) :
    ∃ l format content, l <:+ place ∧ p = manifestPath (FileSystem.pathOf l) format ∧
      fs.resolve p = .ok (format.fileName :: l) ∧
      fs.tree.entry (format.fileName :: l) = some (.file content) ∧
      p.text.utf8ByteSize < FileSystem.maxPathBytes := by
  rw [find?_usualNames, candidates_usualNames proper] at found
  have kind : fs.kind? p = some .file := by simpa using List.find?_some found
  obtain ⟨l, outer, mem⟩ := List.mem_flatMap.1 (List.mem_of_find?_eq_some found)
  have outer := (List.mem_tails _ _).1 outer
  obtain ⟨format, rfl⟩ := mem_manifests_iff.1 mem
  obtain ⟨q, content, leads, entry⟩ := FileSystem.kind?_eq_some_file_iff.1 kind
  have properOuter := proper.of_isSuffix outer
  obtain rfl := FileSystem.eq_of_resolve_manifestPath_pathOf properOuter leads
  have noError := (FileSystem.resolve_eq_ok_iff.1 leads).1
  exact ⟨l, format, content, outer, rfl, leads, entry,
    (FileSystem.pathError?_manifestPath_pathOf properOuter).1 noError⟩

/-- The only manifest of a directory is the first that is found from there. -/
theorem find?_usualNames_of_file {content : ByteArray} (proper : ProperPlace place)
    (short : (manifestPath (FileSystem.pathOf place) format).text.utf8ByteSize <
      FileSystem.maxPathBytes)
    (file : fs.tree.entry (format.fileName :: place) = some (.file content))
    (alone : ∀ other, other ≠ format → fs.tree.entry (other.fileName :: place) = none) :
    find? fs.kind? (FileSystem.pathOf place) Program.usualNames =
      some (manifestPath (FileSystem.pathOf place) format) := by
  have leads : fs.resolve _ = .ok _ :=
    FileSystem.resolve_manifestPath_pathOf proper short (by simp [file])
  have here : fs.kind? (manifestPath (FileSystem.pathOf place) format) = some .file :=
    FileSystem.kind?_eq_some_file_iff.2 ⟨_, _, leads, file⟩
  have others (other : Format) (ne : other ≠ format) :
      fs.kind? (manifestPath (FileSystem.pathOf place) other) ≠ some .file := by
    intro kind
    obtain ⟨q, _, leads, found⟩ := FileSystem.kind?_eq_some_file_iff.1 kind
    obtain rfl := FileSystem.eq_of_resolve_manifestPath_pathOf proper leads
    simp [alone other ne] at found
  have first : (manifests (FileSystem.pathOf place)).find? (fun p => fs.kind? p = some .file) =
      some (manifestPath (FileSystem.pathOf place) format) := by
    cases format with
    | toml => exact List.find?_cons_of_pos (by simpa using here)
    | json =>
      have noToml := others .toml (by decide)
      rw [manifests, List.find?_cons_of_neg (by simpa using noToml)]
      exact List.find?_cons_of_pos (by simpa using here)
  obtain ⟨outer, tails⟩ : ∃ outer, place.tails = place :: outer := by
    cases place <;> exact ⟨_, rfl⟩
  rw [find?_usualNames, candidates_usualNames proper, tails, List.flatMap_cons, List.find?_append,
    first, Option.some_or]

end Search

end SiteManifest
