import SiteManifest.Command.Run
import SiteManifest.Proofs.Command.Init
import SiteManifest.Proofs.Json.RoundTrip
import SiteManifest.Proofs.Manifest.File
import SiteManifest.Proofs.Site.Loading
import SiteManifest.Proofs.Text.Uppercase
import SiteManifest.Proofs.Toml.Lines

/-!
# What a site starts with is accepted

The first manifest of a site is read back from its text in either format, and the checks take it,
whatever the files around it. One thing is in the way: the title comes from the name of the
directory, so a directory with a blank name gets a title that is refused.

## Main definitions

* `Init.hasBlankName`: a directory of which the title would be blank.

## Main statements

* `Init.check_written`: what starting a site writes is what checking it accepts.
* `Init.blank_name_refused`: behind a blank name the manifest is written, and then refused.
-/
namespace SiteManifest

namespace Init

variable {fs after : FileSystem} {root path : Path} {format : Format}

/-! ## The title -/

/-- Whether the name of a directory holds nothing that can be seen. The root has no name. -/
def hasBlankName (root : Path) : Bool := root.fileName?.any fun name => decide (Text.IsBlank name)

theorem isBlank_title_iff : Text.IsBlank (title root) ↔ hasBlankName root = true := by
  unfold title hasBlankName
  split
  next none =>
    rw [none]
    decide
  next empty => exact absurd empty Path.fileName?_ne_empty
  next name _ found =>
    rw [found, Option.any_some, decide_eq_true_eq]
    exact Text.isBlank_capitalized_iff name

/-! ## Checks -/

/-- The only thing that may be wrong with the manifest of a new site. -/
def blankTitle : Diagnostics := ⟨[⟨⟨"title"⟩, "title must not be empty", none⟩], []⟩

theorem check_starter (root : Path) :
    (starter root).check = Located.below (.key "title") (requireText .title (title root)) := by
  have url : Site.checkUrl starterUrl = [] := by decide +kernel
  have baseUrl : Site.checkBaseUrl "/" = [] := by decide
  have navbar : Navbar.check (.bare [.ofPage "docs/introduction" "Docs"]) = [] := by decide +kernel
  have prism : Prism.check ⟨"github", some "dracula"⟩ = [] := by decide +kernel
  simp [Site.check, Site.checkMetadata, starter, Site.starter, Site.presetList, Located.below,
    Located.each, url, baseUrl, navbar, prism]

/-- The verdict on a new site, which is refused if the name of its directory is blank. -/
def judged (root : Path) (a : α) : Except Diagnostics α :=
  if hasBlankName root then .error blankTitle else .ok a

theorem load_starter (root : Path) :
    Site.load (starter root).toJson = judged root (starter root, .empty) := by
  rw [Site.load_of_decode (starter root).decode_toJson, Site.diagnostics, check_starter,
    requireText, judged]
  by_cases blank : hasBlankName root = true
  · rw [if_pos (isBlank_title_iff.2 blank), if_pos blank]
    rfl
  · rw [if_neg (mt isBlank_title_iff.1 blank), if_neg blank]
    rfl

/-- A new site names no files. -/
theorem missingFiles_starter (root base static : Path) (kind : Path → Option Kind) :
    (starter root).missingFiles kind base static = [] := rfl

theorem checkReferences_starter (root base static : Path) (fs : FileSystem) :
    ((starter root).checkReferences (m := StateM FileSystem) base static).run fs =
      (.ok (), fs) := by
  rw [Site.checkReferences_eq, missingFiles_starter]
  rfl

theorem answer_starter (root base : Path) (options : LoadOptions) (fs : FileSystem) :
    fs.answer (starter root) base options = .ok () := by
  unfold FileSystem.answer
  rw [missingFiles_starter]
  cases options.checkReferences <;> rfl

/-! ## Texts -/

/-- The links and the code highlighting of a new site. -/
def starterLink : List (String × Json) :=
  [("to", .string "docs/introduction"), ("label", .string "Docs")]

def starterPrism : List (String × Json) :=
  [("theme", .string "github"), ("darkTheme", .string "dracula")]

/-- The members of the manifest of a new site with a title. -/
def starterMembers (title : String) : List (String × Json) :=
  [("title", .string title), ("url", .string starterUrl), ("baseUrl", .string "/"),
    ("navbar", .list [.table starterLink]), ("prism", .table starterPrism)]

theorem toJson_starter (root : Path) :
    (starter root).toJson = .table (starterMembers (title root)) := rfl

theorem integral_starter (root : Path) : (starter root).toJson.Integral := by
  simp [toJson_starter, starterMembers, starterLink, starterPrism, Json.Integral,
    Json.IntegralItems, Json.IntegralMembers]

theorem keysOnce_starter (root : Path) : (starter root).toJson.KeysOnce := by
  simp [toJson_starter, starterMembers, starterLink, starterPrism, Json.KeysOnce,
    Json.KeysOnceItems, Json.KeysOnceMembers]

theorem nesting_starter (root : Path) : (starter root).toJson.nesting = 3 := by
  simp [toJson_starter, starterMembers, starterLink, starterPrism, Json.nesting,
    Json.nestingItems, Json.nestingMembers]

theorem json_parse_starter (root : Path) :
    Json.parse (Json.pretty (starter root).toJson) = .ok (starter root).toJson :=
  Json.parse_pretty (integral_starter root) (keysOnce_starter root)
    (by rw [nesting_starter]; decide)

/-- The lines of the manifest, which has two headers. -/
def starterLines (title : String) : List Toml.Line :=
  Toml.plainPairs (starterMembers title) ++
    .header true [] "navbar" ::
      (Toml.plainPairs starterLink ++ .header false [] "prism" :: Toml.plainPairs starterPrism)

theorem documentChars_starter (title : String) :
    Toml.documentChars (starterMembers title) =
      Toml.pairLines (starterMembers title) ++
        (Toml.headerLine false true ["navbar"] ++
          (Toml.pairLines starterLink ++
            (Toml.headerLine false false ["prism"] ++ (Toml.pairLines starterPrism ++ [])))) := by
  have begun : (Toml.pairLines (starterMembers title)).isEmpty = false := rfl
  unfold Toml.documentChars
  simp only [begun]
  simp [starterMembers, starterLink, starterPrism, Toml.sectionsChars, Toml.sectionChars,
    Toml.elementsChars, Toml.hasHeader, Toml.isTable, Toml.needsHeader]

/-- Every member that is written without a header is a text. -/
def HoldsTexts (members : List (String × Json)) : Prop :=
  ∀ member ∈ members, Toml.hasHeader member.2 = false → ∃ s, member.2 = .string s

theorem holdsTexts_starterMembers (title : String) : HoldsTexts (starterMembers title) := by
  simp [HoldsTexts, starterMembers, Toml.hasHeader, Toml.isTable]

theorem holdsTexts_starterLink : HoldsTexts starterLink := by simp [HoldsTexts, starterLink]

theorem holdsTexts_starterPrism : HoldsTexts starterPrism := by simp [HoldsTexts, starterPrism]

theorem HoldsTexts.lines?_pairLines {members : List (String × Json)} (h : HoldsTexts members)
    (rest : List Char) :
    Toml.lines? (Toml.pairLines members ++ rest) =
      (Toml.lines? rest).map (Toml.plainPairs members ++ ·) := by
  refine Toml.lines?_pairLines fun member mem plain => ?_
  obtain ⟨s, text⟩ := h member mem plain
  rw [text]
  exact Toml.readsBack_string s

theorem HoldsTexts.return_not_mem {members : List (String × Json)} (h : HoldsTexts members) :
    '\r' ∉ Toml.pairLines members := by
  refine Toml.return_not_mem_pairLines fun member mem plain => ?_
  obtain ⟨s, text⟩ := h member mem plain
  rw [text, Toml.valueChars]
  exact Toml.return_not_mem_textChars s

theorem lines?_starter (title : String) :
    Toml.lines? (Toml.documentChars (starterMembers title)) = some (starterLines title) := by
  have header (isArray : Bool) (key : String) (rest : List Char) :
      Toml.lines? (Toml.headerLine false isArray [key] ++ rest) =
        (Toml.lines? rest).map (.header isArray [] key :: ·) :=
    Toml.lines?_headerLine false isArray [] (by decide)
  rw [documentChars_starter, (holdsTexts_starterMembers title).lines?_pairLines, header,
    holdsTexts_starterLink.lines?_pairLines, header, holdsTexts_starterPrism.lines?_pairLines,
    Toml.lines?_nil]
  simp [starterLines]

theorem table?_starterLines (title : String) :
    ((Toml.Document.ofLines (starterLines title)).table?.map Toml.Table.toJson) =
      some (.table (starterMembers title)) := rfl

theorem return_not_mem_starter (title : String) :
    '\r' ∉ Toml.documentChars (starterMembers title) := by
  simp [documentChars_starter, (holdsTexts_starterMembers title).return_not_mem,
    holdsTexts_starterLink.return_not_mem, holdsTexts_starterPrism.return_not_mem,
    Toml.return_not_mem_headerLine]

theorem toml_parse?_starter (title : String) :
    Toml.parse? (String.ofList (Toml.documentChars (starterMembers title))) =
      some (.table (starterMembers title)) := by
  obtain ⟨table, some, json⟩ := Option.map_eq_some_iff.1 (table?_starterLines title)
  rw [← json]
  exact Toml.parse?_of_lines? (return_not_mem_starter title) (lines?_starter title) some

/-- The manifest of a new site has a text in either format, and is read back from it. -/
theorem parse_starter (root : Path) (format : Format) :
    ∃ text, (starter root).render format = .ok text ∧
      format.parse text = .ok (starter root).toJson := by
  cases format with
  | json =>
    refine ⟨Json.pretty (starter root).toJson, rfl, ?_⟩
    rw [Format.parse, json_parse_starter]
    rfl
  | toml =>
    refine ⟨String.ofList (Toml.documentChars (starterMembers (title root))), rfl, ?_⟩
    rw [Format.parse, toml_parse?_starter, toJson_starter]

/-- What comes of the text of a new site is the verdict on the site. -/
theorem ofText_starter {text : String} (parsed : format.parse text = .ok (starter root).toJson)
    (path : Path) :
    Site.ofText path format text =
      (judged root (starter root, Diagnostics.empty)).mapError .invalid := by
  rw [Site.ofText, parsed]
  simp only
  rw [load_starter]

/-! ## The file -/

/-- A file of the name of a manifest has the format of that name. -/
theorem ofPath_manifestPath (directory : Path) (format : Format) :
    Format.ofPath (manifestPath directory format) = format := by
  have name : (manifestPath directory format).fileName? = some format.fileName := by
    refine Path.fileName?_of_names names_manifestPath ?_ ?_
    · cases format <;> decide
    · cases format <;> decide
  unfold Format.ofPath Path.extension?
  rw [name]
  cases format <;> rfl

/-- The text of a site is in the file that was written, unless a device took it. -/
theorem read_of_write {s : Site} {text : String} (render : s.render format = .ok text)
    (h : (write (m := StateM FileSystem) root s format).run fs = (.ok path, after)) :
    path = manifestPath root format ∧
      (fs.TurnsBack root ∨ after.kind? path ≠ some .special → after.read path = .ok text) := by
  cases ends_of_run h with
  | written prepared rendered write =>
    obtain rfl := Except.ok.inj (render.symm.trans rendered)
    refine ⟨rfl, fun plain => ?_⟩
    rcases plain with back | plain
    · obtain ⟨slot, led, rfl⟩ := prepared.exists_slot_of_write back write
      exact FileSystem.read_of_resolve (FileSystem.resolve_putFile led _)
        (FileTree.entry_putFile_self slot _)
    · exact FileSystem.read_of_write write plain

theorem run_rootOf (name : Option Path) (fs : FileSystem) :
    (rootOf name : StateM FileSystem Path).run fs = (directoryOf fs name, fs) := rfl

/-- A dry run gives the text and writes nothing. -/
theorem run_of_dry {text : String} {name : Option Path}
    (render : (starter (directoryOf fs name)).render format = .ok text) :
    (run (m := StateM FileSystem) name true format).run fs = (.quiet (.ok text), fs) := by
  rw [run, FileSystem.run_bind (run_rootOf name fs)]
  simp only [render]
  rfl

/-- Where a site was started, its manifest was written. -/
theorem exists_write_of_run {name : Option Path} {outcome : Outcome String}
    (h : (run (m := StateM FileSystem) name false format).run fs = (outcome, after))
    (ok : outcome.result = .ok "") :
    ∃ path, (write (m := StateM FileSystem) (directoryOf fs name) (starter (directoryOf fs name))
      format).run fs = (.ok path, after) := by
  rw [run, FileSystem.run_bind (run_rootOf name fs)] at h
  simp only [Bool.false_eq_true, if_false] at h
  rcases written : (write (m := StateM FileSystem) (directoryOf fs name)
    (starter (directoryOf fs name)) format).run fs with ⟨e | path, left⟩
  · rw [FileSystem.run_bind written] at h
    obtain ⟨rfl, rfl⟩ := Prod.mk.inj h
    contradiction
  · rw [FileSystem.run_bind written] at h
    obtain ⟨-, rfl⟩ := Prod.mk.inj h
    exact ⟨path, rfl⟩

/-! ## The verdict -/

/-- Wherever the text of a new site is read as a manifest, checking it comes to the verdict on the
site, since the site names no files. -/
theorem result_check {text : String} (here : fs.read path = .ok text)
    (named : Format.ofPath path = format)
    (site : Site.ofText path format text =
      (judged root (starter root, Diagnostics.empty)).mapError .invalid)
    (options : CheckOptions) :
    ((Check.run (m := StateM FileSystem) path options).run fs).1.result =
      ((judged root ()).mapError .invalid).mapError .manifest := by
  rw [Check.run_run, FileSystem.opening, here, named]
  simp only [site, judged]
  by_cases blank : hasBlankName root = true
  · rw [if_pos blank, if_pos blank]
    rfl
  · rw [if_neg blank, if_neg blank]
    simp [Except.mapError, Except.map, answer_starter]

/-- The command checks the manifest that it finds. -/
theorem result_runCommand_check {wanted : Option Path} {references verbose : Bool}
    (found : (Manifest.find? (m := StateM FileSystem)
      (wanted.elim Program.usualNames ([·]))).run fs = (some path, fs)) :
    ((Program.runCommand (m := StateM FileSystem) ⟨wanted, .check references verbose⟩).run
        fs).1.result =
      ((Check.run (m := StateM FileSystem) path ⟨references, verbose⟩).run fs).1.result.map
        fun _ => "" := by
  unfold Program.runCommand Program.withManifest
  simp only
  rw [FileSystem.run_bind found]
  simp only
  rw [FileSystem.run_bind (Check.run_run path ⟨references, verbose⟩ fs), Check.run_run]
  rfl

/-- What starting a site writes is what checking it accepts, in either format, whatever the files
around it, and from wherever the manifest is looked for. There is one exception: if the name of the
directory is blank, the same manifest is written and then refused for its title. What was written is
read again, unless the path goes back out of a directory that is new and there leads to a device. -/
theorem check_written (root : Path) (format : Format) :
    Site.load (starter root).toJson = judged root (starter root, .empty) ∧
    (∀ base static fs,
      ((starter root).checkReferences (m := StateM FileSystem) base static).run fs =
        (.ok (), fs)) ∧
    ∃ text, (starter root).render format = .ok text ∧
      (∀ path, Site.ofText path format text =
        (judged root (starter root, Diagnostics.empty)).mapError .invalid) ∧
      (∀ fs path after,
        (write (m := StateM FileSystem) root (starter root) format).run fs = (.ok path, after) →
          path = manifestPath root format ∧
            (fs.TurnsBack root ∨ after.kind? path ≠ some .special →
              after.read path = .ok text)) ∧
      (∀ fs name, directoryOf fs name = root →
        (run (m := StateM FileSystem) name true format).run fs = (.quiet (.ok text), fs) ∧
        ∀ outcome after,
          (run (m := StateM FileSystem) name false format).run fs = (outcome, after) →
            outcome.result = .ok "" →
              fs.TurnsBack root ∨ after.kind? (manifestPath root format) ≠ some .special →
                after.read (manifestPath root format) = .ok text) ∧
      ∀ fs directory, fs.read (manifestPath directory format) = .ok text →
        (∀ options,
          ((Check.run (m := StateM FileSystem) (manifestPath directory format) options).run
            fs).1.result = ((judged root ()).mapError .invalid).mapError .manifest) ∧
        ∀ wanted references verbose,
          (Manifest.find? (m := StateM FileSystem) (wanted.elim Program.usualNames ([·]))).run fs =
              (some (manifestPath directory format), fs) →
            ((Program.runCommand (m := StateM FileSystem)
              ⟨wanted, .check references verbose⟩).run fs).1.result =
                ((judged root "").mapError .invalid).mapError .manifest := by
  obtain ⟨text, render, parsed⟩ := parse_starter root format
  have site := ofText_starter parsed
  refine ⟨load_starter root, fun base static fs => checkReferences_starter root base static fs,
    text, render, site, fun fs path after h => read_of_write render h, ?started, ?checked⟩
  case started =>
    rintro fs name rfl
    refine ⟨run_of_dry render, fun outcome after h ok => ?_⟩
    obtain ⟨path, written⟩ := exists_write_of_run h ok
    obtain ⟨rfl, read⟩ := read_of_write render written
    exact read
  case checked =>
    intro fs directory here
    have checked := result_check here (ofPath_manifestPath directory format) (site _)
    refine ⟨checked, fun wanted references verbose found => ?_⟩
    rw [result_runCommand_check found, checked, judged, judged]
    cases hasBlankName root with
    | true => rfl
    | false => rfl

/-- A file system without files. -/
def emptyDisk : FileSystem where
  tree :=
    { entry := fun place => if place = [] then some .directory else none
      root := rfl
      parent := by grind }
  here := []
  proper := properPlace_nil

theorem docs_check_written :
    ((run (m := StateM FileSystem) (some ⟨"docs"⟩) false .toml).run emptyDisk).1.result = .ok "" ∧
      ((Check.run (m := StateM FileSystem) ⟨"/docs/docsite.toml"⟩ ⟨true, true⟩).run
        ((run (m := StateM FileSystem) (some ⟨"docs"⟩) false .toml).run emptyDisk).2).1.result =
          .ok () := by
  have started : ((run (m := StateM FileSystem) (some ⟨"docs"⟩) false .toml).run
      emptyDisk).1.result = .ok "" := by
    decide +kernel
  have directory : directoryOf emptyDisk (some ⟨"docs"⟩) = ⟨"/docs"⟩ := by decide +kernel
  have file : manifestPath ⟨"/docs"⟩ .toml = ⟨"/docs/docsite.toml"⟩ := by decide +kernel
  have back : emptyDisk.TurnsBack ⟨"/docs"⟩ := FileTree.turnsBack_of_not_mem (by decide +kernel)
  have accepted : judged ⟨"/docs"⟩ () = .ok () := by decide +kernel
  obtain ⟨-, -, text, -, -, -, starts, checks⟩ := check_written ⟨"/docs"⟩ .toml
  have written := (starts emptyDisk (some ⟨"docs"⟩) directory).2
  generalize (run (m := StateM FileSystem) (some ⟨"docs"⟩) false .toml).run emptyDisk = answer
    at started written ⊢
  have here := written answer.1 answer.2 rfl started (.inl back)
  have checked := (checks answer.2 ⟨"/docs"⟩ here).1 ⟨true, true⟩
  rw [accepted, file] at checked
  exact ⟨started, checked⟩

/-- In a directory whose name is a blank a site can be started, but its manifest is refused. -/
theorem blank_name_refused :
    ((run (m := StateM FileSystem) (some ⟨" "⟩) false .toml).run emptyDisk).1.result = .ok "" ∧
      ((Check.run (m := StateM FileSystem) ⟨"/ /docsite.toml"⟩ ⟨true, true⟩).run
        ((run (m := StateM FileSystem) (some ⟨" "⟩) false .toml).run emptyDisk).2).1.result =
          .error (.manifest (.invalid ⟨[⟨⟨"title"⟩, "title must not be empty", none⟩], []⟩)) := by
  have started : ((run (m := StateM FileSystem) (some ⟨" "⟩) false .toml).run
      emptyDisk).1.result = .ok "" := by
    decide +kernel
  have directory : directoryOf emptyDisk (some ⟨" "⟩) = ⟨"/ "⟩ := by decide +kernel
  have file : manifestPath ⟨"/ "⟩ .toml = ⟨"/ /docsite.toml"⟩ := by decide +kernel
  have back : emptyDisk.TurnsBack ⟨"/ "⟩ := FileTree.turnsBack_of_not_mem (by decide +kernel)
  have refused : judged ⟨"/ "⟩ () = .error blankTitle := by decide +kernel
  obtain ⟨text, render, parsed⟩ := parse_starter ⟨"/ "⟩ .toml
  have written (outcome : Outcome String) (after : FileSystem) :=
    @exists_write_of_run emptyDisk after .toml (some ⟨" "⟩) outcome
  rw [directory] at written
  generalize (run (m := StateM FileSystem) (some ⟨" "⟩) false .toml).run emptyDisk = answer
    at started written ⊢
  obtain ⟨path, written⟩ := written answer.1 answer.2 rfl started
  obtain ⟨rfl, here⟩ := read_of_write render written
  have checked := result_check (here (.inl back)) (ofPath_manifestPath _ _)
    (ofText_starter parsed _) ⟨true, true⟩
  rw [refused, file] at checked
  exact ⟨started, checked⟩

end Init

end SiteManifest
