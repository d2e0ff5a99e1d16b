import SiteManifest.Command.Init
import SiteManifest.Proofs.Files.Directories

/-!
# Starting a site leaves manifests alone

A manifest is written only where looking for one finds none, and after the directories on the way
have been made. Making them changes what a path leads to in one case only: if the path goes back out
of a directory that was not there. In every other case nothing that was there is changed.

## Main definitions

* `Init.Ends`: how writing a first manifest can end.

## Main statements

* `Init.ends_write`: it ends in one of these ways.
* `Init.grows_write`: it changes nothing, if its path goes back only where it can be gone.
* `Init.write_replaces_manifest`: behind a missing directory it replaces a manifest.
-/
namespace SiteManifest

/-- A path that goes back, by two dots, only from where it leads already. -/
def FileSystem.TurnsBack (fs : FileSystem) (p : Path) : Prop :=
  fs.tree.TurnsBack (fs.start p) p.names

namespace Init

variable {fs : FileSystem} {root : Path} {s : Site} {format : Format}

/-! ## The path of a manifest -/

/-- The path of the manifest of a format. -/
abbrev manifestPath (root : Path) (format : Format) : Path := root.join ⟨format.fileName⟩

theorem mem_manifests_iff {path : Path} :
    path ∈ manifests root ↔ ∃ format, path = manifestPath root format := by
  simp only [manifests, List.mem_cons, List.not_mem_nil, or_false]
  constructor
  · rintro (rfl | rfl)
    · exact ⟨.toml, rfl⟩
    · exact ⟨.json, rfl⟩
  · rintro ⟨format, rfl⟩
    cases format
    · exact .inr rfl
    · exact .inl rfl

theorem isAbsolute_fileName (format : Format) : (Path.mk format.fileName).isAbsolute = false := by
  cases format <;> rfl

theorem names_fileName (format : Format) :
    (Path.mk format.fileName).names = [format.fileName] := by
  cases format <;> decide +kernel

theorem names_manifestPath : (manifestPath root format).names = root.names ++ [format.fileName] := by
  rw [Path.names_join (isAbsolute_fileName format), names_fileName]

theorem start_manifestPath : fs.start (manifestPath root format) = fs.start root := by
  rw [FileSystem.start, Path.isAbsolute_join (isAbsolute_fileName format), FileSystem.start]

theorem endsInSlash_manifestPath : FileSystem.endsInSlash (manifestPath root format) = false := by
  have last : (Path.mk format.fileName).chars.getLast? ≠ some '/' := by
    cases format <;> decide
  have nonempty : (Path.mk format.fileName).chars ≠ [] := by
    cases format <;> decide
  rw [FileSystem.endsInSlash, Path.getLast?_chars_join (isAbsolute_fileName format) nonempty]
  simpa using last

theorem canName_fileName (format : Format) : FileTree.CanName format.fileName := by
  cases format <;> exact ⟨by decide, by decide, by decide +kernel⟩

theorem getLast?_names_manifestPath :
    (manifestPath root format).names.getLast? = some format.fileName := by
  rw [names_manifestPath, List.getLast?_concat]

/-- A manifest is written into the directory that was asked for. -/
theorem container_manifestPath_iff {place : Location} :
    fs.container (manifestPath root format) = .ok place ↔
      FileSystem.pathError? (manifestPath root format) = none ∧
        fs.tree.walk (fs.start root) root.names = .ok place := by
  rw [FileSystem.container_eq_ok_iff, start_manifestPath, names_manifestPath,
    List.dropLast_concat]

/-! ## How it ends -/

/-- Where no manifest was found, the directory was made, or that failed on the way. -/
structure Prepares (fs : FileSystem) (root : Path) (made : FileSystem)
    (result : Except OsError Unit) : Prop where
  free : ∀ path ∈ manifests root, fs.kind? path = none
  create : fs.createDirectories root = (made, result)

/-- How writing a manifest into a directory can end: with which answer, and what there is then. -/
inductive Ends (fs : FileSystem) (root : Path) (s : Site) (format : Format) :
    Except CommandError Path → FileSystem → Prop
  | alreadyThere {path : Path} (hp : path ∈ manifests root) (there : fs.kind? path ≠ none) :
    Ends fs root s format (.error (.alreadyThere path)) fs
  | notCreated {made : FileSystem} {e : OsError} (h : Prepares fs root made (.error e)) :
    Ends fs root s format (.error (.notCreated root e)) made
  | notRendered {made : FileSystem} {e : Failure} (h : Prepares fs root made (.ok ()))
    (render : s.render format = .error e) : Ends fs root s format (.error (.manifest e)) made
  | notWritten {made after : FileSystem} {text : String} {e : OsError}
    (h : Prepares fs root made (.ok ())) (render : s.render format = .ok text)
    (write : made.write (manifestPath root format) text = (after, .error e)) :
    Ends fs root s format (.error (.notWritten (manifestPath root format) e)) after
  | written {made after : FileSystem} {text : String} (h : Prepares fs root made (.ok ()))
    (render : s.render format = .ok text)
    (write : made.write (manifestPath root format) text = (after, .ok ())) :
    Ends fs root s format (.ok (manifestPath root format)) after

/-- Writing the text of a site into a directory that is there. -/
theorem run_writeText {path : Path} :
    (writeText (m := StateM FileSystem) s format path).run fs =
      match s.render format with
      | .error e => (.error (.manifest e), fs)
      | .ok text =>
        match fs.write path text with
        | (after, .error e) => (.error (.notWritten path e), after)
        | (after, .ok ()) => (.ok path, after) := by
  unfold writeText
  cases s.render format with
  | error e => rfl
  | ok text =>
    have answer : (Disk.write path text : StateM FileSystem (Except OsError Unit)).run fs =
        ((fs.write path text).2, (fs.write path text).1) := rfl
    simp only
    rw [StateT.run_bind, answer]
    rcases fs.write path text with ⟨after, _ | _⟩ <;> rfl

/-- Looking at paths gives the kinds of all paths, and changes nothing. -/
theorem run_kinds (paths : List Path) :
    (Disk.kinds paths : StateM FileSystem (Path → Option Kind)).run fs = pure (fs.kind?, fs) := rfl

/-- Writing a manifest where none was found. -/
theorem run_write_of_free (free : ∀ path ∈ manifests root, fs.kind? path = none) :
    (write (m := StateM FileSystem) root s format).run fs =
      match fs.createDirectories root with
      | (made, .error e) => (.error (.notCreated root e), made)
      | (made, .ok ()) =>
        (writeText (m := StateM FileSystem) s format (manifestPath root format)).run made := by
  have found : ((manifests root).find? fun p => (fs.kind? p).isSome) = none := by
    simpa [List.find?_eq_none] using free
  have create : (Disk.createDirectories root : StateM FileSystem (Except OsError Unit)).run fs =
      ((fs.createDirectories root).2, (fs.createDirectories root).1) := rfl
  rw [write, StateT.run_bind, run_kinds, pure_bind]
  simp only
  rw [found]
  simp only
  rw [StateT.run_bind, create]
  rcases fs.createDirectories root with ⟨made, _ | _⟩ <;> rfl

theorem run_write_of_found {path : Path}
    (found : ((manifests root).find? fun p => (fs.kind? p).isSome) = some path) :
    (write (m := StateM FileSystem) root s format).run fs =
      (.error (.alreadyThere path), fs) := by
  rw [write, StateT.run_bind, run_kinds, pure_bind]
  simp only
  rw [found]
  rfl

theorem ends_write :
    Ends fs root s format ((write (m := StateM FileSystem) root s format).run fs).1
      ((write (m := StateM FileSystem) root s format).run fs).2 := by
  cases found : (manifests root).find? fun p => (fs.kind? p).isSome with
  | some path =>
    have there := @List.find?_some _ (fun p => (fs.kind? p).isSome) _ _ found
    rw [run_write_of_found found]
    exact .alreadyThere (List.mem_of_find?_eq_some found) (Option.isSome_iff_ne_none.1 there)
  | none =>
    have free : ∀ path ∈ manifests root, fs.kind? path = none := by
      simpa [List.find?_eq_none] using found
    rw [run_write_of_free free]
    rcases create : fs.createDirectories root with ⟨made, e | _⟩
    · exact .notCreated ⟨free, create⟩
    · have prepared : Prepares fs root made (.ok ()) := ⟨free, create⟩
      simp only
      rw [run_writeText]
      cases render : s.render format with
      | error e => exact .notRendered prepared render
      | ok text =>
        simp only
        rcases write : made.write (manifestPath root format) text with ⟨after, e | _⟩
        · exact .notWritten prepared render write
        · exact .written prepared render write

theorem ends_of_run {answer : Except CommandError Path} {after : FileSystem}
    (h : (write (m := StateM FileSystem) root s format).run fs = (answer, after)) :
    Ends fs root s format answer after := by
  have ends := @ends_write fs root s format
  rwa [h] at ends

/-! ## What is there stays there -/

/-- The directory of a site and those that it lies in, as far as their paths can be spelled. -/
abbrev directories (root : Path) : List Path := root :: root.ancestors.tail

theorem Prepares.opens {made : FileSystem} {result : Except OsError Unit}
    (h : Prepares fs root made result) : fs.Opens (directories root) made := by
  have := fs.opens_createDirectories root
  rwa [h.create] at this

theorem Prepares.grows {made : FileSystem} {result : Except OsError Unit}
    (h : Prepares fs root made result) : fs.tree.Grows made.tree :=
  h.opens.grows

theorem Prepares.here {made : FileSystem} {result : Except OsError Unit}
    (h : Prepares fs root made result) : made.here = fs.here :=
  h.opens.here

/-- What the directories were made for leads where nothing was, as long as the path goes back only
from where it led before. -/
theorem Prepares.entry_eq_none {made : FileSystem} {place : Location} (back : fs.TurnsBack root)
    (h : Prepares fs root made (.ok ()))
    (way : made.container (manifestPath root format) = .ok place) :
    fs.tree.entry (format.fileName :: place) = none := by
  have start : made.start root = fs.start root := by
    rw [FileSystem.start, h.here, FileSystem.start]
  obtain ⟨noError, led⟩ := container_manifestPath_iff.1 way
  rw [start] at led
  rcases FileTree.walk_grown h.grows back led with before | nothing
  · have way : fs.container (manifestPath root format) = .ok place :=
      container_manifestPath_iff.2 ⟨noError, before⟩
    exact FileSystem.entry_eq_none_of_kind? (h.free _ (mem_manifests_iff.2 ⟨format, rfl⟩)) way
      getLast?_names_manifestPath endsInSlash_manifestPath (canName_fileName format)
  · exact FileTree.entry_cons_eq_none (by simp [nothing])

/-- The file of a manifest is the one of its name in the directory that was asked for. -/
theorem place_of_slot {made : FileSystem} {slot : made.tree.Slot}
    (led : made.slot (manifestPath root format) = .ok slot) :
    made.container (manifestPath root format) = .ok slot.directory ∧
      slot.place = format.fileName :: slot.directory := by
  obtain ⟨way, last, _⟩ := FileSystem.slot_eq_ok_iff.1 led
  have name := Option.some.inj (getLast?_names_manifestPath.symm.trans last)
  exact ⟨way, by rw [FileTree.Slot.place, name]⟩

/-- A manifest that was written is a file, and no device took its text, as long as the path goes
back only from where it led before. -/
theorem Prepares.exists_slot_of_write {made after : FileSystem} {text : String}
    (back : fs.TurnsBack root) (h : Prepares fs root made (.ok ()))
    (write : made.write (manifestPath root format) text = (after, .ok ())) :
    ∃ slot, made.slot (manifestPath root format) = .ok slot ∧
      after = made.putFile slot text.toUTF8 := by
  cases FileSystem.writes_write write with
  | passed led special =>
    obtain ⟨way, name⟩ := place_of_slot led
    rw [name] at special
    obtain ⟨directory, _⟩ := h.opens.new _ _ (h.entry_eq_none back way) special
    contradiction
  | done led => exact ⟨_, led, rfl⟩

/-- Whatever comes of writing a manifest, no file of another name has changed. -/
theorem exists_of_write_manifest {made after : FileSystem} {text : String}
    {result : Except OsError Unit}
    (write : made.write (manifestPath root format) text = (after, result)) :
    after = made ∨ ∃ slot content, made.container (manifestPath root format) = .ok slot.directory ∧
      slot.place = format.fileName :: slot.directory ∧ after = made.putFile slot content := by
  rcases (FileSystem.writes_write write).eq_or_putFile with same | ⟨slot, n, led, put⟩
  · exact .inl same
  · obtain ⟨way, name⟩ := place_of_slot led
    exact .inr ⟨slot, _, way, name, put⟩

/-- Whatever comes of writing a manifest, the tree has grown, as long as the path goes back only
from where it led before. -/
theorem Prepares.grows_of_write {made after : FileSystem} {text : String}
    {result : Except OsError Unit} (back : fs.TurnsBack root) (h : Prepares fs root made (.ok ()))
    (write : made.write (manifestPath root format) text = (after, result)) :
    fs.tree.Grows after.tree := by
  rcases exists_of_write_manifest write with rfl | ⟨slot, content, way, name, rfl⟩
  · exact h.grows
  · exact h.grows.putFile (name ▸ h.entry_eq_none back way)

theorem Prepares.entry_of_write {made after : FileSystem} {text : String}
    {result : Except OsError Unit} {place : Location} {entry : Entry}
    (h : Prepares fs root made (.ok ()))
    (write : made.write (manifestPath root format) text = (after, result))
    (found : fs.tree.entry place = some entry) :
    after.tree.entry place = some entry ∨ ∃ directory, place = format.fileName :: directory := by
  rcases exists_of_write_manifest write with rfl | ⟨slot, content, _, name, rfl⟩
  · exact .inl (h.grows _ _ found)
  · by_cases here : place = slot.place
    · exact .inr ⟨slot.directory, here.trans name⟩
    · exact .inl ((FileTree.entry_putFile_of_ne here).trans (h.grows _ _ found))

theorem Ends.grows {answer : Except CommandError Path} {after : FileSystem}
    (h : Ends fs root s format answer after) (back : fs.TurnsBack root) :
    fs.tree.Grows after.tree := by
  cases h with
  | alreadyThere => exact .refl _
  | notCreated h => exact h.grows
  | notRendered h => exact h.grows
  | notWritten h _ write => exact h.grows_of_write back write
  | written h _ write => exact h.grows_of_write back write

/-- The directory that a new site is started in. -/
def directoryOf (fs : FileSystem) (name : Option Path) : Path :=
  name.elim fs.currentDirectory fs.currentDirectory.join

theorem run_run {name : Option Path} {dry : Bool} :
    ((run (m := StateM FileSystem) name dry format).run fs).2 =
      if dry then fs
      else ((write (m := StateM FileSystem) (directoryOf fs name) (starter (directoryOf fs name))
        format).run fs).2 := by
  have root : (rootOf name : StateM FileSystem Path).run fs = pure (directoryOf fs name, fs) := rfl
  rw [run, StateT.run_bind, root, pure_bind]
  cases dry with
  | true => rfl
  | false =>
    simp only [Bool.false_eq_true, if_false]
    rw [StateT.run_bind]
    rcases (write (m := StateM FileSystem) (directoryOf fs name) (starter (directoryOf fs name))
      format).run fs with ⟨e | path, after⟩ <;> rfl

/-- Whatever the path, nothing but a manifest of the format is changed. -/
theorem Ends.entry {answer : Except CommandError Path} {after : FileSystem} {place : Location}
    {entry : Entry} (h : Ends fs root s format answer after)
    (found : fs.tree.entry place = some entry) :
    after.tree.entry place = some entry ∨ ∃ directory, place = format.fileName :: directory := by
  cases h with
  | alreadyThere => exact .inl found
  | notCreated h => exact .inl (h.grows _ _ found)
  | notRendered h => exact .inl (h.grows _ _ found)
  | notWritten h _ write => exact h.entry_of_write write found
  | written h _ write => exact h.entry_of_write write found

/-- Starting a site changes nothing that is there, if the path of its directory goes back only from
where it leads already: whatever manifest is anywhere in the tree keeps its content, and so does
every other file, whether the first manifest is written or not. Whatever the path, no file of
another name than that of the manifest is changed. -/
theorem grows_write (fs : FileSystem) (root : Path) :
    (fs.TurnsBack root →
      (∀ s format, fs.tree.Grows
        ((write (m := StateM FileSystem) root s format).run fs).2.tree) ∧
      ∀ name dry format, root = directoryOf fs name →
        fs.tree.Grows ((run (m := StateM FileSystem) name dry format).run fs).2.tree) ∧
    ∀ s format place entry, fs.tree.entry place = some entry →
      ((write (m := StateM FileSystem) root s format).run fs).2.tree.entry place = some entry ∨
        ∃ directory, place = format.fileName :: directory := by
  refine ⟨fun back => ?_, fun s format place entry => ends_write.entry⟩
  have writes (s : Site) (format : Format) :
      fs.tree.Grows ((write (m := StateM FileSystem) root s format).run fs).2.tree :=
    ends_write.grows back
  refine ⟨writes, fun name dry format same => ?_⟩
  subst same
  rw [run_run]
  split
  · exact .refl _
  · exact writes _ format

/-- A manifest beside a directory, and nothing else. -/
def oneManifest : FileSystem where
  tree :=
    { entry := fun place =>
        if place = [] ∨ place = ["sub"] then some .directory
        else if place = ["docsite.toml"] then some (.file "title = 1".toUTF8)
        else none
      root := rfl
      parent := by grind }
  here := []
  proper := properPlace_nil

theorem oneManifest_grows_write :
    oneManifest.TurnsBack ⟨"sub/../new"⟩ ∧
      oneManifest.tree.Grows ((write (m := StateM FileSystem) ⟨"sub/../new"⟩
        (starter ⟨"sub/../new"⟩) .json).run oneManifest).2.tree := by
  have names : (Path.mk "sub/../new").names = ["sub", "..", "new"] := by decide +kernel
  have back : oneManifest.TurnsBack ⟨"sub/../new"⟩ := by
    rintro front ⟨rest, split⟩
    rw [names] at split
    obtain rfl : front = ["sub"] := by
      rcases front with _ | ⟨first, _ | ⟨second, _ | ⟨third, more⟩⟩⟩ <;> simp_all
    exact ⟨[], by rfl⟩
  exact ⟨back, ((grows_write oneManifest _).1 back).1 _ _⟩

/-- Behind a directory that is missing a path that goes back leads to a manifest that was not found
before, and it is replaced. -/
theorem write_replaces_manifest :
    (oneManifest.tree.entry ["docsite.toml"]) = some (.file "title = 1".toUTF8) ∧
      ((write (m := StateM FileSystem) ⟨"missing/.."⟩ (starter ⟨"missing/.."⟩) .toml).run
        oneManifest).2.tree.entry ["docsite.toml"] ≠ some (.file "title = 1".toUTF8) := by
  refine ⟨rfl, ?_⟩
  decide +kernel

end Init

end SiteManifest
