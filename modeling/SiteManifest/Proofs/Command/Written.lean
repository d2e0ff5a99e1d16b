import SiteManifest.Proofs.Command.Starter
import SiteManifest.Proofs.Manifest.Search
import SiteManifest.Proofs.Site.Reloading

/-!
# A written manifest stays and is found

Once a manifest was written into a directory, that is the one manifest of this directory: it holds
the text of its site, a search from there finds it, and reading it gives the site back. Writing
another one there fails ever after and changes nothing. Only the search has a limit of its own,
since it goes by absolute paths and the system takes no path of 4096 bytes or more.

## Main definitions

* `Init.Lies`: a directory has a manifest of one format and none of another.

## Main statements

* `Init.exists_lies_of_write`: a manifest that was written lies in its directory alone.
* `Init.run_write_of_resolve`: into a directory without one a manifest is written.
* `Init.Lies.run_writes`: where a manifest lies no other one is written.
* `Init.found_of_write`: a written manifest stays and is found.
* `Init.deep_manifest_not_found`: too deep in a tree it is not found.
-/
namespace SiteManifest

namespace Init

variable {fs made after : FileSystem} {root path : Path} {format : Format} {text : String}
  {place : Location} {s : Site} {warnings : Diagnostics}

/-! ## Where a manifest lies -/

/-- The directory that a path leads to has a manifest of one format, with a text in it, and none of
another format. -/
structure Lies (fs : FileSystem) (root : Path) (format : Format) (text : String)
    (place : Location) : Prop where
  noError : FileSystem.pathError? (manifestPath root format) = none
  leads : fs.tree.walk (fs.start root) root.names = .ok place
  file : fs.tree.entry (format.fileName :: place) = some (.file text.toUTF8)
  alone : ∀ other, other ≠ format → fs.tree.entry (other.fileName :: place) = none

/-- The path of a manifest leads to its name in the directory. -/
theorem resolve_manifestPath_iff_of_walk (leads : fs.tree.walk (fs.start root) root.names = .ok place)
    {l : Location} :
    fs.resolve (manifestPath root format) = .ok l ↔
      FileSystem.pathError? (manifestPath root format) = none ∧
        fs.tree.walk place [format.fileName] = .ok l := by
  rw [resolve_manifestPath_iff, FileTree.walk_append, leads, Except.bind]

/-- Where nothing has the name of a manifest, its path leads to nothing. -/
theorem kind?_manifestPath_eq_none (leads : fs.tree.walk (fs.start root) root.names = .ok place)
    (nothing : fs.tree.entry (format.fileName :: place) = none) :
    fs.kind? (manifestPath root format) = none := by
  unfold FileSystem.kind? FileSystem.entry?
  cases resolved : fs.resolve (manifestPath root format) with
  | error e => rfl
  | ok l =>
    obtain ⟨_, ok⟩ := (resolve_manifestPath_iff_of_walk leads).1 resolved
    have can := canName_fileName format
    obtain rfl : l = format.fileName :: place := by
      rw [FileTree.eq_of_walk (by simpa using can.2.1.symm) ok]
      simp [can.1]
    simp only
    rw [nothing]
    rfl

theorem Lies.resolve (h : Lies fs root format text place) :
    fs.resolve (manifestPath root format) = .ok (format.fileName :: place) := by
  have directory := fs.tree.parent format.fileName place (by simp [h.file])
  exact (resolve_manifestPath_iff_of_walk h.leads).2
    ⟨h.noError, FileTree.walk_singleton (canName_fileName format) directory (by simp [h.file])⟩

theorem Lies.read (h : Lies fs root format text place) :
    fs.read (manifestPath root format) = .ok text :=
  FileSystem.read_of_resolve h.resolve h.file

/-- The directory is a proper place, as everything that a path leads to. -/
theorem Lies.properPlace (h : Lies fs root format text place) : ProperPlace place :=
  (properPlace_cons_iff.1 (FileSystem.properPlace_of_resolve h.resolve)).2

/-- Where directories were made for a manifest there is none: none was found before, and nothing
that was made is deeper than the directory for it. -/
theorem entry_eq_none_of_prepares (onwards : ".." ∉ root.names)
    (prepared : Prepares fs root made (.ok ()))
    (way : made.container (manifestPath root format) = .ok place) :
    made.tree.entry (format.fileName :: place) = none := by
  by_contra found
  have added := @FileSystem.addsUpTo_createDirectories fs root onwards
  rw [prepared.create] at added
  rcases added _ found with before | short
  · exact before (prepared.entry_eq_none (FileTree.turnsBack_of_not_mem onwards) way)
  · obtain ⟨_, led⟩ := container_manifestPath_iff.1 way
    have deep : place.length = made.depth root := FileSystem.length_of_walk onwards led
    rw [FileSystem.depth_eq_of_here prepared.here] at deep
    rw [List.length_cons, deep] at short
    omega

/-- A manifest that was written lies in its directory. -/
theorem lies_of_write (onwards : ".." ∉ root.names) (prepared : Prepares fs root made (.ok ()))
    (write : made.write (manifestPath root format) text = (after, .ok ())) :
    ∃ place, Lies after root format text place ∧ after.here = fs.here := by
  obtain ⟨slot, led, rfl⟩ :=
    prepared.exists_slot_of_write (FileTree.turnsBack_of_not_mem onwards) write
  obtain ⟨way, name⟩ := place_of_slot led
  obtain ⟨noError, leads⟩ := container_manifestPath_iff.1 way
  have kept := FileTree.keepsPlaces_putFile slot text.toUTF8
  refine ⟨slot.directory, ⟨noError, FileTree.walk_of_keepsPlaces kept leads, ?_, ?_⟩,
    prepared.here⟩
  · rw [← name]
    exact FileTree.entry_putFile_self slot _
  · intro other ne
    have elsewhere : other.fileName :: slot.directory ≠ slot.place := by
      rw [name]
      exact fun same => ne (fileName_injective (List.cons.inj same).1)
    have way : made.container (manifestPath root other) = .ok slot.directory :=
      container_manifestPath_iff.2 ⟨pathError?_manifestPath root other format ▸ noError, leads⟩
    exact (FileTree.entry_putFile_of_ne elsewhere).trans
      (entry_eq_none_of_prepares onwards prepared way)

theorem exists_lies_of_write (onwards : ".." ∉ root.names)
    (h : (write (m := StateM FileSystem) root s format).run fs = (.ok path, after)) :
    ∃ text place, s.render format = .ok text ∧ path = manifestPath root format ∧
      after.here = fs.here ∧ Lies after root format text place := by
  cases ends_of_run h with
  | written prepared rendered write =>
    obtain ⟨place, lies, here⟩ := lies_of_write onwards prepared write
    exact ⟨_, place, rendered, rfl, here, lies⟩

/-! ## Writing the first one -/

/-- On a disk with room, into a directory that is there and has no manifest one is written, and
nothing else changes. -/
theorem run_write_of_resolve (leads : fs.resolve root = .ok place)
    (directory : fs.tree.entry place = some .directory)
    (free : ∀ other : Format, fs.tree.entry (other.fileName :: place) = none)
    (noError : FileSystem.pathError? (manifestPath root format) = none)
    (allowed : fs.limits = .none) (rendered : s.render format = .ok text) :
    ∃ slot : fs.tree.Slot, slot.place = format.fileName :: place ∧
      (write (m := StateM FileSystem) root s format).run fs =
        (.ok (manifestPath root format), fs.putFile slot text.toUTF8) := by
  have walked := FileSystem.walk_of_resolve leads
  have way : fs.container (manifestPath root format) = .ok place :=
    container_manifestPath_iff.2 ⟨noError, walked⟩
  have nothing : ∀ path ∈ manifests root, fs.kind? path = none := by
    intro path mem
    obtain ⟨other, rfl⟩ := mem_manifests_iff.1 mem
    exact kind?_manifestPath_eq_none walked (free other)
  let slot : fs.tree.Slot := ⟨format.fileName, place, directory, by simp [free format]⟩
  have led : fs.slot (manifestPath root format) = .ok slot :=
    FileSystem.slot_eq_ok_iff.2 ⟨way, getLast?_names_manifestPath, endsInSlash_manifestPath,
      canName_fileName format⟩
  have put : fs.write (manifestPath root format) text = (fs.putFile slot text.toUTF8, .ok ()) :=
    FileSystem.write_of_slot led (free format) allowed
  refine ⟨slot, rfl, ?_⟩
  rw [run_write_of_free nothing, FileSystem.createDirectories_of_resolve leads directory]
  simp only
  rw [run_writeText, rendered]
  simp only
  rw [put]

/-! ## Writing another one -/

/-- Where a manifest lies, no other one is written, whatever its format, and nothing changes. -/
theorem Lies.run_write (h : Lies fs root format text place) (t : Site) (other : Format) :
    (write (m := StateM FileSystem) root t other).run fs =
      (.error (.alreadyThere (manifestPath root format)), fs) := by
  have there : (fs.kind? (manifestPath root format)).isSome = true := by
    simp [FileSystem.kind?, FileSystem.entry?, h.resolve, h.file]
  refine run_write_of_found ?_
  cases format with
  | toml => exact List.find?_cons_of_pos there
  | json =>
    have noToml := kind?_manifestPath_eq_none h.leads (h.alone .toml (by decide))
    rw [manifests, List.find?_cons_of_neg (by simp [noToml])]
    exact List.find?_cons_of_pos there

/-- However often it is tried. -/
theorem Lies.run_writes (h : Lies fs root format text place) (later : List (Site × Format)) :
    (later.mapM fun next => write (m := StateM FileSystem) root next.1 next.2).run fs =
      (later.map fun _ => .error (.alreadyThere (manifestPath root format)), fs) := by
  induction later with
  | nil => rfl
  | cons next later ih =>
    rw [List.mapM_cons, FileSystem.run_bind (h.run_write next.1 next.2), FileSystem.run_bind ih]
    rfl

/-! ## Reading it -/

/-- A file with the text of a site is read as this site, with the directory of the file. -/
theorem run_read_of_text (here : fs.read path = .ok text) (named : Format.ofPath path = format)
    (loaded : Site.ofText path format text = .ok (s, warnings)) (static : Path) :
    (Manifest.read (m := StateM FileSystem) path ⟨false, static⟩).run fs =
      (⟨warnings.warnings, .ok ⟨fs.normalized path.directory, s⟩⟩, fs) := by
  rw [Manifest.run_read, FileSystem.opening, here, named]
  simp only
  rw [loaded]
  rfl

/-! ## Finding it -/

theorem run_find?_seenFrom (fs : FileSystem) (proper : ProperPlace place) :
    (Manifest.find? (m := StateM FileSystem) Program.usualNames).run (fs.seenFrom place proper) =
      (Search.find? (fs.seenFrom place proper).kind? (FileSystem.pathOf place) Program.usualNames,
        fs.seenFrom place proper) :=
  Manifest.run_find? _ _

/-- The file is the first that is found from its directory, if its absolute path is not too long. -/
theorem Lies.run_find? (h : Lies fs root format text place) (proper : ProperPlace place)
    (short : (manifestPath (FileSystem.pathOf place) format).text.utf8ByteSize <
      FileSystem.maxPathBytes) :
    (Manifest.find? (m := StateM FileSystem) Program.usualNames).run (fs.seenFrom place proper) =
        (some (manifestPath (FileSystem.pathOf place) format), fs.seenFrom place proper) ∧
      (fs.seenFrom place proper).resolve (manifestPath (FileSystem.pathOf place) format) =
        .ok (format.fileName :: place) := by
  have file : (fs.seenFrom place proper).tree.entry (format.fileName :: place) =
      some (.file text.toUTF8) := h.file
  refine ⟨?_, FileSystem.resolve_manifestPath_pathOf proper short (by simp [file])⟩
  rw [run_find?_seenFrom, Search.find?_usualNames_of_file proper short file h.alone]

/-- If its absolute path is too long, whatever is found is not this file. -/
theorem not_found_of_long (proper : ProperPlace place)
    (long : FileSystem.maxPathBytes ≤
      (manifestPath (FileSystem.pathOf place) format).text.utf8ByteSize) {found : Path}
    (ok : Search.find? fs.kind? (FileSystem.pathOf place) Program.usualNames = some found) :
    fs.resolve found ≠ .ok (format.fileName :: place) := by
  obtain ⟨l, other, _, _, rfl, leads, _, short⟩ := Search.exists_of_find?_usualNames proper ok
  intro same
  obtain ⟨name, rfl⟩ := List.cons.inj (Except.ok.inj (leads.symm.trans same))
  obtain rfl := fileName_injective name
  exact Nat.not_lt.2 long short

/-- A manifest that was written stays and is found. The file is that of its format in the directory,
and holds the text of the site. From the directory a search finds it, exactly if its absolute path
is short enough for the system, and the site is read back from it. Every later attempt to write a
manifest there, in either format, fails and changes nothing. -/
theorem found_of_write {raw : Json.Raw} (ok : Site.load raw.value = .ok (s, warnings))
    (integral : s.toJson.Integral) (nests : s.toJson.nesting ≤ 64) (onwards : ".." ∉ root.names)
    (h : (write (m := StateM FileSystem) root s format).run fs = (.ok path, after)) :
    ∃ text place, ∃ proper : ProperPlace place, s.render format = .ok text ∧
      path = root.join ⟨format.fileName⟩ ∧
      after.read path = .ok text ∧ after.resolve path = .ok (format.fileName :: place) ∧
      after.tree.walk (after.start root) root.names = .ok place ∧
      ((manifestPath (FileSystem.pathOf place) format).text.utf8ByteSize <
          FileSystem.maxPathBytes →
        ∃ found, (Manifest.find? (m := StateM FileSystem) Program.usualNames).run
            (after.seenFrom place proper) = (some found, after.seenFrom place proper) ∧
          (after.seenFrom place proper).resolve found = .ok (format.fileName :: place) ∧
          ∀ static, ∃ base, (Manifest.read (m := StateM FileSystem) found ⟨false, static⟩).run
            (after.seenFrom place proper) =
              (⟨warnings.warnings, .ok ⟨base, s⟩⟩, after.seenFrom place proper)) ∧
      (FileSystem.maxPathBytes ≤
          (manifestPath (FileSystem.pathOf place) format).text.utf8ByteSize →
        ∀ found, (Manifest.find? (m := StateM FileSystem) Program.usualNames).run
            (after.seenFrom place proper) = (some found, after.seenFrom place proper) →
          (after.seenFrom place proper).resolve found ≠ .ok (format.fileName :: place)) ∧
      (∀ static, ∃ base, (Manifest.read (m := StateM FileSystem) path ⟨false, static⟩).run after =
        (⟨warnings.warnings, .ok ⟨base, s⟩⟩, after)) ∧
      ∀ later : List (Site × Format),
        (later.mapM fun next => write (m := StateM FileSystem) root next.1 next.2).run after =
          (later.map fun _ => .error (.alreadyThere path), after) := by
  obtain ⟨text, place, rendered, rfl, here, lies⟩ := exists_lies_of_write onwards h
  have loaded (p : Path) := Site.ofText_render p ok integral nests rendered
  have proper := lies.properPlace
  refine ⟨text, place, proper, rendered, rfl, lies.read, lies.resolve, lies.leads, fun short => ?_,
    fun long found ok => ?_, fun static => ?_, lies.run_writes⟩
  · obtain ⟨found, leads⟩ := lies.run_find? proper short
    have text : (after.seenFrom place proper).read _ = .ok text :=
      FileSystem.read_of_resolve leads lies.file
    exact ⟨_, found, leads, fun static =>
      ⟨_, run_read_of_text text (ofPath_manifestPath _ format) (loaded _) static⟩⟩
  · rw [run_find?_seenFrom] at ok
    exact not_found_of_long proper long (Prod.mk.inj ok).1
  · exact ⟨_, run_read_of_text lies.read (ofPath_manifestPath root format) (loaded _) static⟩

/-- A manifest with options, written behind a dot into a directory that is not there yet. -/
theorem options_found_of_write :
    Site.load Site.optionsTable.value = .ok (Site.optionsSite, .empty) ∧
      Site.optionsSite.toJson.Integral ∧ Site.optionsSite.toJson.nesting ≤ 64 ∧
      ".." ∉ (Path.mk "sub/./new").names ∧
      ∃ after, (write (m := StateM FileSystem) ⟨"sub/./new"⟩ Site.optionsSite .json).run
          oneManifest = (.ok ⟨"sub/./new/docsite.json"⟩, after) ∧
        ∃ inner, inner = after.seenFrom ["new", "sub"] (by decide +kernel) ∧
          ∃ found base, (Manifest.find? (m := StateM FileSystem) Program.usualNames).run inner =
              (some found, inner) ∧
            (Manifest.read (m := StateM FileSystem) found ⟨false, ⟨"static"⟩⟩).run inner =
              (⟨[], .ok ⟨base, Site.optionsSite⟩⟩, inner) := by
  have nests : Site.optionsSite.toJson.nesting ≤ 64 := by
    rw [Site.nesting_optionsSite]
    decide
  have onwards : ".." ∉ (Path.mk "sub/./new").names := by decide +kernel
  have answer : ((write (m := StateM FileSystem) ⟨"sub/./new"⟩ Site.optionsSite .json).run
      oneManifest).1 = .ok ⟨"sub/./new/docsite.json"⟩ := by decide +kernel
  generalize run : (write (m := StateM FileSystem) ⟨"sub/./new"⟩ Site.optionsSite .json).run
    oneManifest = ended at answer
  obtain ⟨_, after⟩ := ended
  obtain rfl : _ = _ := answer
  obtain ⟨_, _, _, _, here, _⟩ := exists_lies_of_write onwards run
  obtain ⟨text, place, _, _, _, _, _, leads, finds, _⟩ := found_of_write Site.load_optionsTable
    Site.integral_optionsSite nests onwards run
  have start : after.start ⟨"sub/./new"⟩ = [] := here
  have names : (Path.mk "sub/./new").names = ["sub", ".", "new"] := by decide +kernel
  obtain rfl : place = ["new", "sub"] := by
    rw [FileTree.eq_of_walk onwards leads, start, names]
    decide
  obtain ⟨found, finds, _, reads⟩ := finds (by decide +kernel)
  obtain ⟨base, reads⟩ := reads ⟨"static"⟩
  exact ⟨Site.load_optionsTable, Site.integral_optionsSite, nests, onwards, after, rfl, _, rfl,
    found, base, finds, reads⟩

/-! ## Too deep -/

/-- A name of 250 letters. -/
def longName : String := .ofList (List.replicate 250 'a')

/-- Seventeen directories of this name within each other. -/
def deepPlace : Location := List.replicate 17 longName

theorem size_letters (n : Nat) : (String.ofList (List.replicate n 'a')).utf8ByteSize = n := by
  have one : "a".utf8ByteSize = 1 := by decide
  induction n with
  | zero => rfl
  | succ n ih =>
    simp only [List.replicate_succ, String.ofList_cons, String.utf8ByteSize_append, ih]
    exact (congrArg (· + n) one).trans (Nat.add_comm 1 n)

theorem properName_letters {n : Nat} (many : 2 < n) (short : n ≤ FileTree.maxNameBytes) :
    ProperName (.ofList (List.replicate n 'a')) := by
  have letters : (String.ofList (List.replicate n 'a')).toList = List.replicate n 'a' :=
    String.toList_ofList
  have other {c : Char} (ne : c ≠ 'a') : c ∉ (String.ofList (List.replicate n 'a')).toList := by
    rw [letters]
    exact fun mem => ne (List.eq_of_mem_replicate mem)
  have differs {name : String} (few : name.toList.length ≤ 2) :
      String.ofList (List.replicate n 'a') ≠ name := by
    rintro rfl
    rw [letters, List.length_replicate] at few
    omega
  exact ⟨⟨differs (by decide), other (by decide)⟩, other (by decide), differs (by decide),
    differs (by decide), (size_letters n).trans_le short⟩

theorem properPlace_deepPlace : ProperPlace deepPlace := by
  intro name mem
  rw [List.eq_of_mem_replicate mem]
  exact properName_letters (by decide) (by decide)

/-- Nothing but these directories, seen from the innermost one. -/
def deepDisk : FileSystem where
  tree :=
    { entry := fun place => if place <:+ deepPlace then some .directory else none
      root := by simp
      parent := by
        intro name place found
        have outer : name :: place <:+ deepPlace := by simpa using found
        simp [(List.suffix_cons name place).trans outer] }
  here := deepPlace
  proper := properPlace_deepPlace

theorem entry_deepDisk (l : Location) :
    deepDisk.tree.entry l = if l <:+ deepPlace then some .directory else none := rfl

theorem entry_deepDisk_ne_file {l : Location} {content : ByteArray} :
    deepDisk.tree.entry l ≠ some (.file content) := by
  rw [entry_deepDisk]
  split <;> simp

theorem long_deepPlace (format : Format) : FileSystem.maxPathBytes ≤
    (manifestPath (FileSystem.pathOf deepPlace) format).text.utf8ByteSize := by
  have each : ∀ name ∈ deepPlace.reverse, 250 ≤ name.utf8ByteSize := by
    intro name mem
    rw [List.eq_of_mem_replicate (List.mem_reverse.1 mem)]
    exact (size_letters 250).ge
  calc FileSystem.maxPathBytes
      ≤ 250 * deepPlace.reverse.length := by decide
    _ ≤ (FileSystem.pathOf deepPlace).text.utf8ByteSize :=
        Path.mul_length_le_size_ofComponents true each
    _ ≤ _ := Path.size_le_join _ (isAbsolute_fileName format)

/-- Deep in a tree a manifest is written, and is not found from its directory. -/
theorem deep_manifest_not_found :
    (starter ⟨"T"⟩).toJson.KeysOnce ∧
      Site.load (starter ⟨"T"⟩).toJson = .ok (starter ⟨"T"⟩, .empty) ∧
      (starter ⟨"T"⟩).toJson.Integral ∧ (starter ⟨"T"⟩).toJson.nesting ≤ 64 ∧
      ".." ∉ (Path.mk ".").names ∧ deepDisk.resolve ⟨"."⟩ = .ok deepPlace ∧
      ∃ after, (write (m := StateM FileSystem) ⟨"."⟩ (starter ⟨"T"⟩) .toml).run deepDisk =
          (.ok ⟨"./docsite.toml"⟩, after) ∧
        ∃ inner, inner = after.seenFrom deepPlace properPlace_deepPlace ∧
          (Manifest.find? (m := StateM FileSystem) Program.usualNames).run inner =
            (none, inner) := by
  have directory : deepDisk.tree.entry deepPlace = some .directory := by
    rw [entry_deepDisk, if_pos (List.suffix_refl deepPlace)]
  have free (other : Format) : deepDisk.tree.entry (other.fileName :: deepPlace) = none := by
    rw [entry_deepDisk, if_neg]
    exact fun outer => Nat.not_succ_le_self _ outer.length_le
  have start : deepDisk.start ⟨"."⟩ = deepPlace := if_neg (by decide)
  have leads : deepDisk.resolve ⟨"."⟩ = .ok deepPlace := by
    have names : (Path.mk ".").names ++ (if FileSystem.endsInSlash ⟨"."⟩ then ["."] else []) =
        ["."] := by decide +kernel
    rw [FileSystem.resolve_eq_ok_iff, names, FileTree.walk_cons_eq_ok_iff]
    refine ⟨by decide +kernel, deepPlace, ?_, rfl⟩
    rw [FileTree.step?, start, directory]
    simp
  have noError : FileSystem.pathError? (manifestPath ⟨"."⟩ .toml) = none := by decide +kernel
  obtain ⟨text, rendered⟩ : ∃ text, (starter ⟨"T"⟩).render .toml = .ok text := ⟨_, rfl⟩
  obtain ⟨slot, name, run⟩ := run_write_of_resolve leads directory free noError rfl rendered
  have loaded : Site.load (starter ⟨"T"⟩).toJson = .ok (starter ⟨"T"⟩, .empty) := by
    decide +kernel
  have nests : (starter ⟨"T"⟩).toJson.nesting ≤ 64 := by
    rw [nesting_starter]
    decide
  refine ⟨keysOnce_starter _, loaded, integral_starter _, nests, by decide +kernel, leads, _, run,
    _, rfl, ?_⟩
  rw [run_find?_seenFrom, Prod.mk.injEq]
  refine ⟨Option.eq_none_iff_forall_ne_some.2 fun path found => ?_, rfl⟩
  obtain ⟨l, format, content, _, rfl, _, file, short⟩ :=
    Search.exists_of_find?_usualNames properPlace_deepPlace found
  by_cases here : l = deepPlace
  · subst here
    exact Nat.not_lt.2 (long_deepPlace format) short
  · -- Every other place is as it was, and no file.
    have other : format.fileName :: l ≠ slot.place := by
      rw [name]
      exact fun same => here (List.cons.inj same).2
    have before : deepDisk.tree.entry (format.fileName :: l) = some (.file content) :=
      (FileTree.entry_putFile_of_ne other).symm.trans file
    exact entry_deepDisk_ne_file before

end Init

end SiteManifest
