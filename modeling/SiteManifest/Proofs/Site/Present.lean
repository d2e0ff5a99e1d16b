import SiteManifest.Proofs.Manifest.Resolving
import SiteManifest.Proofs.Manifest.Search
import SiteManifest.Proofs.Site.References

/-!
# Files that are there

A file that is where its reference says is not told to be missing. Only what is no file and stands
at the absolute path that a reference also spells is in its way, since such a path is taken as it
is.

## Main statements

* `FileSystem.kind?_join_of_dotted`: one dot in front of a path leads to the same file.
* `Reference.isMissing_iff_of_file`: when a file that is there is missed.
* `Site.hasErrorAt_iff_of_file`: when an error is told of it.
-/
namespace SiteManifest

/-! ## A dot in front of a path -/

/-- A way goes on from where a dot in it stays. -/
theorem FileTree.walk_of_dotted {t : FileTree} {place l : Location} {front back : List String}
    (ok : t.walk place (front ++ "." :: back) = .ok l) : t.walk place (front ++ back) = .ok l := by
  rw [walk_append] at ok ⊢
  cases way : t.walk place front with
  | error => simp [way, Except.bind] at ok
  | ok mid =>
    rw [way] at ok
    obtain ⟨next, step, ok⟩ := walk_cons_eq_ok_iff.1 ok
    obtain rfl : mid = next := by
      unfold step? at step
      grind
    exact ok

namespace FileSystem

variable {fs : FileSystem} {base p q : Path} {l : Location}

/-- A slash at the end of a path asks for a directory. -/
theorem directory_of_endsInSlash (slash : endsInSlash p = true) (leads : fs.resolve p = .ok l) :
    fs.tree.entry l = some .directory := by
  obtain ⟨_, ok⟩ := resolve_eq_ok_iff.1 leads
  rw [if_pos slash, FileTree.walk_append] at ok
  cases way : fs.tree.walk (fs.start p) p.names with
  | error => simp [way, Except.bind] at ok
  | ok place =>
    rw [way] at ok
    obtain ⟨next, step, same⟩ := FileTree.walk_cons_eq_ok_iff.1 ok
    obtain rfl := Except.ok.inj same
    unfold FileTree.step? at step
    grind

theorem names_of_dotted (dotted : q.text = "./" ++ p.text) : q.names = "." :: p.names := by
  change Path.namesIn q.text.toList = "." :: Path.namesIn p.text.toList
  rw [dotted, String.toList_append]
  exact Path.namesIn_append_slash ['.'] p.text.toList

/-- What the system takes with a dot and a slash in the middle it takes without them. -/
theorem pathError?_join_of_dotted (dotted : q.text = "./" ++ p.text)
    (relative : p.isAbsolute = false) (nonempty : p.text ≠ "")
    (noError : pathError? (base.join q) = none) : pathError? (base.join p) = none := by
  have relative' : q.isAbsolute = false := by simp [Path.isAbsolute, Path.chars, dotted]
  obtain ⟨opening, joined⟩ := base.exists_join_eq
  rw [joined relative', dotted] at noError
  rw [joined relative]
  simp only [pathError?_eq_none_iff, Path.chars, String.toList_append, List.mem_append, not_or,
    String.utf8ByteSize_append] at noError ⊢
  obtain ⟨⟨noNul, _, noNul'⟩, _, short⟩ := noError
  exact ⟨⟨noNul, noNul'⟩, by simp [nonempty], by omega⟩

/-- A path without the dot and the slash in front of it leads to the same file. -/
theorem kind?_join_of_dotted (dotted : q.text = "./" ++ p.text) (relative : p.isAbsolute = false)
    (there : fs.kind? (base.join q) = some .file) : fs.kind? (base.join p) = some .file := by
  obtain ⟨l, content, leads, file⟩ := kind?_eq_some_file_iff.1 there
  have relative' : q.isAbsolute = false := by simp [Path.isAbsolute, Path.chars, dotted]
  have chars : q.chars = ['.', '/'] ++ p.chars := by simp [Path.chars, dotted]
  have noSlash : endsInSlash (base.join q) = false := by
    by_contra slash
    simp [directory_of_endsInSlash (by simpa using slash) leads] at file
  have lasts : (base.join q).chars.getLast? = q.chars.getLast? :=
    Path.getLast?_chars_join relative' (by simp [chars])
  have nonempty : p.chars ≠ [] := by
    intro empty
    rw [chars, empty] at lasts
    simp [endsInSlash, lasts] at noSlash
  have noSlash' : endsInSlash (base.join p) = false := by
    rw [chars, List.getLast?_append_of_ne_nil _ nonempty] at lasts
    rw [endsInSlash, Path.getLast?_chars_join relative nonempty, ← lasts]
    exact noSlash
  obtain ⟨noError, ok⟩ := resolve_eq_ok_iff.1 leads
  refine kind?_eq_some_file_iff.2 ⟨l, content, resolve_eq_ok_iff.2
    ⟨pathError?_join_of_dotted dotted relative (by simpa [Path.chars] using nonempty) noError, ?_⟩,
    file⟩
  simp only [start, Path.isAbsolute_join relative', Path.names_join relative',
    names_of_dotted dotted, noSlash, Bool.false_eq_true, if_false, List.append_nil] at ok
  simp only [start, Path.isAbsolute_join relative, Path.names_join relative, noSlash',
    Bool.false_eq_true, if_false, List.append_nil]
  exact FileTree.walk_of_dotted ok

end FileSystem

/-! ## References to files -/

namespace Reference

variable {fs : FileSystem} {text : String} {n : Nat} {rel root static : Path} {base : Base}

/-- Below its directory a reference leads to the file that is there. -/
theorem kind?_join_of_file (written : text.toList = List.replicate n '/' ++ rel.chars)
    (relative : rel.isAbsolute = false) (stays : ¬Escapes text) {directory : Path}
    (there : fs.kind? (directory.join rel) = some .file) :
    fs.kind? (directory.join ⟨withoutDot (withoutSlashes text)⟩) = some .file := by
  have spells := spells_withoutDot text
  have inside := Bool.eq_false_iff.2 (mt spells.isAbsolute_iff.1 stays)
  rw [withoutSlashes_of_slashes written relative] at inside ⊢
  unfold withoutDot at inside ⊢
  split
  next rest dotted =>
    rw [dotted] at inside
    refine FileSystem.kind?_join_of_dotted ?_ inside there
    rw [← String.toList_inj, dotted]
    simp
  next => exact there

/-- A file that is there is missed only if something that is no file stands at the absolute path
that its reference spells, too. -/
theorem isMissing_iff_of_file (internal : isExternal text = false) (stays : ¬Escapes text)
    (written : text.toList = List.replicate n '/' ++ rel.chars) (relative : rel.isAbsolute = false)
    (there : fs.kind? (((Reference.mk text base).directory root static).join rel) = some .file) :
    (Reference.mk text base).isMissing fs.kind? root static = true ↔
      (Path.mk text).isAbsolute = true ∧ ∃ kind, fs.kind? ⟨text⟩ = some kind ∧ kind ≠ .file := by
  have below := kind?_join_of_file written relative stays there
  unfold isMissing path resolve
  rw [internal]
  by_cases absolute : (Path.mk text).isAbsolute = true
  · cases kind : fs.kind? ⟨text⟩ with
    | none => simp [absolute, below]
    | some k => simp [absolute, kind]
  · simp [absolute, below]

end Reference

namespace Site

variable {s : Site} {raw : Json} {warnings : Diagnostics}
variable {base : Base} {steps : List Step} {text : String}

/-- The places of the names of files have plain keys. -/
theorem plainSteps_of_mem_writtenReferences {v : Json} {r : Located Reference}
    (h : r ∈ v.writtenReferences) : FieldPath.PlainSteps r.steps := by
  have place : r.steps ∈ Json.imagePlaces ∨ r.steps ∈ v.presetPlaces := by
    rw [Json.writtenReferences, List.mem_append, Json.mem_map_mk_iff, Json.mem_map_mk_iff] at h
    exact h.imp (fun image => (Json.mem_textsAt_iff.1 image.2).1)
      fun option => (Json.mem_textsAt_iff.1 option.2).1
  rcases place with image | option
  · have plain : ∀ steps ∈ Json.imagePlaces, FieldPath.PlainSteps steps := by decide +kernel
    exact plain _ image
  · obtain ⟨_, _, _, inList, same⟩ := Json.mem_inside_iff.1 option
    obtain ⟨_, i, w, rest, rfl, _, option, rfl⟩ := Json.mem_inEach_iff.1 inList
    obtain ⟨_, rfl, plain⟩ := Json.exists_plainSteps_of_mem_optionPlaces option
    rw [← same]
    exact ⟨by decide +kernel, plain⟩

/-- An error is told at the path of a name exactly if its file is missing. -/
theorem hasErrorAt_missingFiles_iff {r : Located Reference} {kind : Path → Option Kind}
    {root static : Path} (once : ¬s.WrittenTwice s.navbar Theme.navbar)
    (h : r ∈ s.toJson.writtenReferences) :
    (Diagnostics.ofFindings .root (s.missingFiles kind root static)).hasErrorAt
        (FieldPath.ofSteps r.steps).text = true ↔ r.what.isMissing kind root static = true := by
  rw [ofFindings_missingFiles, Diagnostics.hasErrorAt, missingFiles, references_eq once]
  simp only [List.map_map, List.any_map, List.any_eq_true, List.mem_filter, Function.comp_apply,
    beq_iff_eq]
  constructor
  · rintro ⟨q, ⟨hq, missing⟩, same⟩
    have places : q.steps = r.steps := FieldPath.ofSteps_injective
      (plainSteps_of_mem_writtenReferences hq) (plainSteps_of_mem_writtenReferences h)
      (congrArg FieldPath.mk same)
    rw [← List.inj_on_of_nodup_map s.toJson.nodup_writtenReferences hq h places]
    exact missing
  · intro missing
    exact ⟨r, ⟨h, missing⟩, rfl⟩

/-- A file that is where its reference says is told to be missing only if a directory, a device or
anything else that is no file stands at the absolute path that the reference spells, too. Whatever
else there is makes no difference. -/
theorem hasErrorAt_iff_of_file (h : load raw = .ok (s, warnings)) {fs : FileSystem}
    {root static rel : Path} {n : Nat} (file : FileAt base steps)
    (found : s.toJson.at? steps = some (.string text)) (internal : isExternal text = false)
    (stays : ¬Reference.Escapes text)
    (written : text.toList = List.replicate n '/' ++ rel.chars) (relative : rel.isAbsolute = false)
    (there : fs.kind? (((Reference.mk text base).directory root static).join rel) = some .file) :
    (Diagnostics.ofFindings .root (s.missingFiles fs.kind? root static)).hasErrorAt
        (FieldPath.ofSteps steps).text = true ↔
      (Path.mk text).isAbsolute = true ∧ ∃ kind, fs.kind? ⟨text⟩ = some kind ∧ kind ≠ .file := by
  have sound := not_faultAt_of_load h
  have once : ¬s.WrittenTwice s.navbar Theme.navbar := fun twice => sound _ (.navbarTwice twice)
  have listed : ⟨steps, ⟨text, base⟩⟩ ∈ s.toJson.writtenReferences :=
    (mem_writtenReferences_iff sound).2 ⟨file, found⟩
  exact (hasErrorAt_missingFiles_iff once listed).trans
    (Reference.isMissing_iff_of_file internal stays written relative there)

/-- A manifest that names an icon. -/
def iconTable (icon : String) : Json := .table [("title", .string "T"),
  ("url", .string "https://example.com"), ("baseUrl", .string "/"), ("favicon", .string icon)]

def iconSite (icon : String) : Site where
  title := "T"
  tagline := none
  url := "https://example.com"
  baseUrl := "/"
  favicon := some icon
  organizationName := none
  projectName := none
  navbar := none
  footer := none
  prism := none
  theme := none
  presets := none

/-- A directory and a device at the root, and files of the names of both in the static directory. -/
def icons : FileSystem where
  tree :=
    { entry := fun place =>
        if place = [] ∨ place = ["static"] ∨ place = ["icon"] then some .directory
        else if place = ["null"] then some (.special ⟨.empty, none, none⟩)
        else if place ∈ [["icon", "static"], ["icon.png", "static"], ["null", "static"]] then
          some (.file .empty)
        else none
      root := rfl
      parent := by grind }
  here := []
  proper := properPlace_nil

/-- Three slashes and a dot do not hide a file, but a device behind one slash does. -/
theorem icon_hasErrorAt_iff_of_file :
    (load (iconTable "///./icon.png") = .ok (iconSite "///./icon.png", .empty) ∧
      ¬Reference.Escapes "///./icon.png" ∧
      icons.kind? ((Path.mk ".").join staticDirectory |>.join ⟨"./icon.png"⟩) = some .file ∧
      (Diagnostics.ofFindings .root ((iconSite "///./icon.png").missingFiles icons.kind? ⟨"."⟩
        staticDirectory)).hasErrorAt "favicon" = false) ∧
    load (iconTable "/null") = .ok (iconSite "/null", .empty) ∧
      ¬Reference.Escapes "/null" ∧
      icons.kind? ((Path.mk ".").join staticDirectory |>.join ⟨"null"⟩) = some .file ∧
      icons.kind? ⟨"/null"⟩ = some .special ∧
      (Diagnostics.ofFindings .root ((iconSite "/null").missingFiles icons.kind? ⟨"."⟩
        staticDirectory)).hasErrorAt "favicon" = true := by
  have loaded : load (iconTable "///./icon.png") = .ok (iconSite "///./icon.png", .empty) := by
    decide +kernel
  have stays : ¬Reference.Escapes "///./icon.png" :=
    mt (Reference.spells_withoutDot _).isAbsolute_iff.2 (by decide +kernel)
  have there : icons.kind? ((Path.mk ".").join staticDirectory |>.join ⟨"./icon.png"⟩) =
      some .file := by decide +kernel
  have written : "///./icon.png".toList =
      List.replicate 3 '/' ++ (Path.mk "./icon.png").chars := by decide +kernel
  have told := hasErrorAt_iff_of_file loaded .favicon (by decide +kernel) (by decide +kernel) stays
    written (by decide +kernel) there
  have nothing : icons.kind? ⟨"///./icon.png"⟩ = none := by decide +kernel
  have deviceLoaded : load (iconTable "/null") = .ok (iconSite "/null", .empty) := by
    decide +kernel
  have deviceStays : ¬Reference.Escapes "/null" :=
    mt (Reference.spells_withoutDot _).isAbsolute_iff.2 (by decide +kernel)
  have deviceThere : icons.kind? ((Path.mk ".").join staticDirectory |>.join ⟨"null"⟩) =
      some .file := by decide +kernel
  have device : icons.kind? ⟨"/null"⟩ = some .special := by decide +kernel
  have deviceWritten : "/null".toList = List.replicate 1 '/' ++ (Path.mk "null").chars := by
    decide +kernel
  have deviceTold := hasErrorAt_iff_of_file deviceLoaded .favicon (by decide +kernel)
    (by decide +kernel) deviceStays deviceWritten (by decide +kernel) deviceThere
  refine ⟨⟨loaded, stays, there, Bool.eq_false_iff.2 (mt told.1 fun ⟨_, kind, found, _⟩ => ?_)⟩,
    deviceLoaded, deviceStays, deviceThere, device,
    deviceTold.2 ⟨by decide +kernel, .special, device, by decide⟩⟩
  simp [nothing] at found

/-- A file in the static directory is told to be missing if a directory or a device stands at the
absolute path that its reference spells. -/
theorem directory_hides_file :
    (load (iconTable "/icon") = .ok (iconSite "/icon", .empty) ∧ isExternal "/icon" = false ∧
      "/icon".toList = List.replicate 1 '/' ++ (Path.mk "icon").chars ∧
      (Path.mk "icon").isAbsolute = false ∧
      icons.kind? ((Path.mk ".").join staticDirectory |>.join ⟨"icon"⟩) = some .file ∧
      (Diagnostics.ofFindings .root ((iconSite "/icon").missingFiles icons.kind? ⟨"."⟩
        staticDirectory)).hasErrorAt "favicon" = true) ∧
    load (iconTable "/null") = .ok (iconSite "/null", .empty) ∧ isExternal "/null" = false ∧
      "/null".toList = List.replicate 1 '/' ++ (Path.mk "null").chars ∧
      (Path.mk "null").isAbsolute = false ∧
      icons.kind? ((Path.mk ".").join staticDirectory |>.join ⟨"null"⟩) = some .file ∧
      (Diagnostics.ofFindings .root ((iconSite "/null").missingFiles icons.kind? ⟨"."⟩
        staticDirectory)).hasErrorAt "favicon" = true := by
  decide +kernel

end Site

end SiteManifest
