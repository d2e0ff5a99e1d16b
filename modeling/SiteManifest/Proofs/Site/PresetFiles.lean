import SiteManifest.Proofs.FieldPath
import SiteManifest.Proofs.Site.References

/-!
# Files of a preset

A preset is asked for its sidebar and for its stylesheets, it lists all files that it names with
their places, and it is checked. All four look at the same options and see the same in them, as soon
as the checks have nothing to say.

## Main definitions

* `Preset.Offers`: what a preset has where it can name a file.
* `Preset.references`: the names of files in a preset, with the paths of their options.
* `Preset.ListsAll`: all that a preset offers is listed once.

## Main statements

* `Preset.mem_files_iff`: the files of a preset are the texts that it offers.
* `Preset.references_agree`: accessors, references and checks agree.
-/
namespace SiteManifest

open Text

/-- Only lists have something at an index. -/
theorem Json.exists_list_of_part? {v w : Json} {i : Nat} (h : v.part? (.index i) = some w) :
    ∃ vs, v = .list vs ∧ vs[i]? = some w := by
  cases v <;> simp_all [part?]

namespace Preset

variable {p : Preset} {base : FieldPath} {steps : List Step} {v : Json}

/-- The option that names the sidebar. -/
def sidebarPlace : List Step := [.index 1, .key "docs", .key "sidebarPath"]

/-- The option that names the stylesheets. -/
def stylesheetPlace : List Step := [.index 1, .key "theme", .key "customCss"]

/-- The names of files at a place of a preset or below it, with their paths if the preset stands at
a path. -/
def referencesBelow (p : Preset) (base : FieldPath) (place : List Step) :
    List (FieldPath × String) :=
  (p.files.filter (place <+: ·.steps)).map fun x => (x.path base, x.what)

/-- All names of files in a preset. -/
def references (p : Preset) (base : FieldPath) : List (FieldPath × String) :=
  p.files.map fun x => (x.path base, x.what)

/-- What a preset has where it can name a file: under the key of the sidebar, under the key of the
stylesheets if that is no list, and in this list. -/
inductive Offers (p : Preset) : List Step → Json → Prop
  | sidebar {v : Json} (h : (shape.write p).at? sidebarPlace = some v) : Offers p sidebarPlace v
  | stylesheet {v : Json} (h : (shape.write p).at? stylesheetPlace = some v)
    (hl : ∀ vs, v ≠ .list vs) : Offers p stylesheetPlace v
  | item {i : Nat} {v : Json} (h : (shape.write p).at? (stylesheetPlace ++ [.index i]) = some v) :
    Offers p (stylesheetPlace ++ [.index i]) v

/-- Whatever a preset offers is a text that is not blank, and it is listed once. -/
def ListsAll (p : Preset) (base : FieldPath) : Prop :=
  ∀ steps v, p.Offers steps v → ∃ text, v = .string text ∧ ¬IsBlank text ∧
    (p.references base).count (base.extend steps, text) = 1

/-! ## The list of files -/

/-- A place of a preset is looked at for a text that stands there exactly if the preset offers the
text. -/
theorem mem_optionPlaces_iff {text : String}
    (found : (shape.write p).at? steps = some (.string text)) :
    steps ∈ (shape.write p).optionPlaces ↔ p.Offers steps (.string text) := by
  rw [Json.optionPlaces, List.mem_cons, Json.mem_inside_iff]
  constructor
  · rintro (rfl | ⟨w, rest, _, inRow, rfl⟩)
    · exact .sidebar found
    · rcases List.mem_cons.1 inRow with rfl | item
      · exact .stylesheet found (fun vs => Json.noConfusion)
      · obtain ⟨_, i, _, _, _, _, here, rfl⟩ := Json.mem_inEach_iff.1 item
        obtain rfl := List.mem_singleton.1 here
        exact .item found
  · intro offers
    cases offers with
    | sidebar => exact .inl rfl
    | stylesheet => exact .inr ⟨_, [], found, .head _, rfl⟩
    | @item i =>
      rw [Json.at?_append, Option.bind_eq_some_iff] at found
      obtain ⟨w, option, found⟩ := found
      obtain ⟨v, item, _⟩ := Json.at?_cons_eq_some_iff.1 found
      obtain ⟨vs, rfl, item⟩ := Json.exists_list_of_part? item
      exact .inr ⟨_, [.index i], option,
        .tail _ (Json.mem_inEach_iff.2 ⟨vs, i, v, [], rfl, item, .head _, rfl⟩), rfl⟩

theorem Offers.found (h : p.Offers steps v) : (shape.write p).at? steps = some v := by
  cases h <;> assumption

/-- The files of a preset are the texts that it offers. -/
theorem mem_files_iff {x : Located String} : x ∈ p.files ↔ p.Offers x.steps (.string x.what) := by
  rw [← p.textsAt_optionPlaces, Json.mem_textsAt_iff]
  constructor
  · rintro ⟨place, found⟩
    exact (mem_optionPlaces_iff found).1 place
  · intro offers
    exact ⟨(mem_optionPlaces_iff offers.found).2 offers, offers.found⟩

theorem mem_optionPlaces {x : Located String} (h : x ∈ p.files) :
    x.steps ∈ (shape.write p).optionPlaces := by
  rw [← p.textsAt_optionPlaces] at h
  exact (Json.mem_textsAt_iff.1 h).1

/-- No place is listed twice. -/
theorem nodup_files (p : Preset) : (p.files.map (·.steps)).Nodup := by
  rw [← p.textsAt_optionPlaces]
  exact (Json.nodup_optionPlaces _).sublist Json.sublist_textsAt

/-- The sidebar is listed first, and then the stylesheets. -/
theorem files_eq (p : Preset) :
    p.files = p.sidebarPath?.toList.map (⟨sidebarPlace, ·⟩) ++
      p.stylesheetTexts.map (Located.after stylesheetPlace) := by
  unfold files
  cases p.sidebarPath? <;>
    simp [Located.below, Located.under, Located.here, Function.comp_def, sidebarPlace,
      stylesheetPlace, Located.after]

theorem map_what_each {vs : List Json} {first : Nat} :
    (Located.each (fun v => (v.asString?.map Located.here).toList) first vs).map (·.what) =
      vs.filterMap Json.asString? := by
  induction vs generalizing first with
  | nil => rfl
  | cons v vs ih =>
    rw [Located.each, List.map_append, ih, List.filterMap_cons]
    cases v.asString? <;> rfl

theorem map_what_stylesheetTexts (p : Preset) :
    p.stylesheetTexts.map (·.what) = p.stylesheets := by
  unfold stylesheetTexts stylesheets
  cases p.option? ["theme", "customCss"] with
  | none => rfl
  | some v =>
    cases v with
    | list vs => exact map_what_each
    | null | bool | number | string | table => rfl

/-! ## References by their place -/

theorem filter_sidebar (p : Preset) :
    p.files.filter (sidebarPlace <+: ·.steps) =
      p.sidebarPath?.toList.map (⟨sidebarPlace, ·⟩) := by
  rw [files_eq, List.filter_append, List.filter_map, List.filter_map]
  simp [Function.comp_def, Located.after, sidebarPlace, stylesheetPlace]

theorem filter_stylesheet (p : Preset) :
    p.files.filter (stylesheetPlace <+: ·.steps) =
      p.stylesheetTexts.map (Located.after stylesheetPlace) := by
  rw [files_eq, List.filter_append, List.filter_map, List.filter_map]
  simp [Function.comp_def, Located.after, sidebarPlace, stylesheetPlace]

/-- The references are those of the sidebar and those of the stylesheets. -/
theorem references_eq_append (p : Preset) (base : FieldPath) :
    p.references base = p.referencesBelow base sidebarPlace ++
      p.referencesBelow base stylesheetPlace := by
  rw [referencesBelow, referencesBelow, filter_sidebar, filter_stylesheet, ← List.map_append,
    ← files_eq, references]

theorem map_below_sidebar (p : Preset) (base : FieldPath) :
    (p.referencesBelow base sidebarPlace).map (·.2) = p.sidebarPath?.toList := by
  rw [referencesBelow, filter_sidebar, List.map_map, List.map_map]
  exact List.map_id _

theorem map_below_stylesheet (p : Preset) (base : FieldPath) :
    (p.referencesBelow base stylesheetPlace).map (·.2) = p.stylesheets := by
  rw [referencesBelow, filter_stylesheet, List.map_map, List.map_map, ← map_what_stylesheetTexts]
  rfl

/-- A reference stands at the path of something that the preset offers. -/
theorem mem_references_iff {r : FieldPath × String} :
    r ∈ p.references base ↔ ∃ steps, p.Offers steps (.string r.2) ∧ r.1 = base.extend steps := by
  rw [references, List.mem_map]
  constructor
  · rintro ⟨x, listed, rfl⟩
    exact ⟨x.steps, mem_files_iff.1 listed, rfl⟩
  · rintro ⟨steps, offers, path⟩
    exact ⟨⟨steps, r.2⟩, mem_files_iff.2 offers, Prod.ext path.symm rfl⟩

/-- No path is listed twice. -/
theorem nodup_references (p : Preset) (base : FieldPath) :
    ((p.references base).map (·.1)).Nodup := by
  rw [references, List.map_map]
  refine (List.nodup_map_iff_inj_on (List.Nodup.of_map _ p.nodup_files)).2 fun x hx y hy same => ?_
  obtain ⟨rest, steps, plain⟩ := Json.exists_plainSteps_of_mem_optionPlaces (mem_optionPlaces hx)
  obtain ⟨rest', steps', plain'⟩ := Json.exists_plainSteps_of_mem_optionPlaces (mem_optionPlaces hy)
  refine List.inj_on_of_nodup_map p.nodup_files hx hy ?_
  simp only [Function.comp_apply, Located.path, steps, steps'] at same ⊢
  exact FieldPath.extend_index_injective plain plain' same

/-! ## Checked presets -/

/-- A preset of which no error is told has no faults. -/
theorem not_faultAt_of_errors_eq_nil
    (accepted : (Diagnostics.ofFindings base p.check).errors = []) (steps : List Step) :
    ¬p.FaultAt steps := by
  intro fault
  obtain ⟨f, hf, error, _⟩ := hasErrorAt_check.2 fault
  rw [Diagnostics.errors_ofFindings_eq_nil_iff.1 accepted f hf] at error
  contradiction

/-- What a preset without faults offers is a text that is not blank. -/
theorem namesFile_of_offers (sound : ∀ steps, ¬p.FaultAt steps) (h : p.Offers steps v) :
    NamesFile v := by
  by_contra bad
  cases h with
  | sidebar found => exact sound _ (.sidebarPath (p.at?_option_self.symm.trans found) bad)
  | stylesheet found noList =>
    exact sound _ (.customCss (p.at?_option_self.symm.trans found) noList bad)
  | item found =>
    obtain ⟨w, option, found⟩ := at?_option_eq_some_iff.1 found
    obtain ⟨_, item, same⟩ := Json.at?_cons_eq_some_iff.1 found
    obtain ⟨vs, rfl, item⟩ := Json.exists_list_of_part? item
    obtain rfl := Option.some.inj same
    exact sound _ (.stylesheet option item bad)

/-- A preset without faults lists all that it offers. -/
theorem listsAll_of_not_faultAt (sound : ∀ steps, ¬p.FaultAt steps) (base : FieldPath) :
    p.ListsAll base := by
  intro steps v offers
  obtain ⟨text, rfl, visible⟩ := namesFile_of_offers sound offers
  have once : (p.references base).Nodup := List.Nodup.of_map _ (nodup_references p base)
  have listed : (base.extend steps, text) ∈ p.references base :=
    mem_references_iff.2 ⟨steps, offers, rfl⟩
  exact ⟨text, rfl, visible, List.count_eq_one_of_mem once listed⟩

end Preset

/-! ## Presets of a site -/

namespace Site

/-- The names of files at a place of the presets of a site, preset by preset. -/
def presetReferences (s : Site) (place : List Step) : List (FieldPath × String) :=
  s.presetList.zipIdx.flatMap fun (p, i) =>
    p.referencesBelow (.ofSteps [.key "presets", .index i]) place

theorem flatMap_zipIdx_fst {α β : Type} (f : α → List β) (as : List α) :
    (as.zipIdx.flatMap fun x => f x.1) = as.flatMap f := by
  have positions := List.flatMap_map Prod.fst f (l := as.zipIdx)
  rw [List.zipIdx_map_fst] at positions
  exact positions.symm

theorem map_presetReferences_stylesheet (s : Site) :
    (s.presetReferences Preset.stylesheetPlace).map (·.2) = s.stylesheets := by
  rw [presetReferences, List.map_flatMap]
  simp only [Preset.map_below_stylesheet]
  exact flatMap_zipIdx_fst Preset.stylesheets s.presetList

theorem head?_presetReferences_sidebar (s : Site) :
    (s.presetReferences Preset.sidebarPlace).head?.map (·.2) = s.sidebarPath? := by
  have sidebars : (s.presetReferences Preset.sidebarPlace).map (·.2) =
      s.presetList.flatMap fun p => p.sidebarPath?.toList := by
    rw [presetReferences, List.map_flatMap]
    simp only [Preset.map_below_sidebar]
    exact flatMap_zipIdx_fst (fun p => p.sidebarPath?.toList) s.presetList
  rw [← List.head?_map, sidebars, List.head?_flatMap, sidebarPath?]
  congr 1
  funext p
  cases p.sidebarPath? <;> rfl

theorem not_faultAt_of_mem_presetList {raw : Json} {s : Site} {warnings : Diagnostics}
    (h : load raw = .ok (s, warnings)) {p : Preset} (hp : p ∈ s.presetList) (steps : List Step) :
    ¬p.FaultAt steps := by
  intro fault
  cases presets : s.presets with
  | none =>
    rw [presetList, presets] at hp
    contradiction
  | some ps =>
    rw [presetList, presets] at hp
    obtain ⟨i, hi⟩ := List.mem_iff_getElem?.1 hp
    exact not_faultAt_of_load h _ (.presets presets (.intro hi fault))

end Site

/-- The references of a preset are what its accessors give, the sidebar before the stylesheets and
these in their order. Each stands at the path of a place of the written preset that has this very
text, and no path is listed twice. If the checks tell of no error, then whatever stands where a file
can be named is a text with something to see and is listed once. So for a loaded site the accessors
collect the references of all its presets. -/
theorem Preset.references_agree :
    (∀ (p : Preset) (base : FieldPath),
      (∀ r ∈ p.references base, ∃ steps, p.Offers steps (.string r.2) ∧
        (shape.write p).at? steps = some (.string r.2) ∧ r.1 = base.extend steps) ∧
      ((p.references base).map (·.1)).Nodup ∧
      p.references base =
        p.referencesBelow base sidebarPlace ++ p.referencesBelow base stylesheetPlace ∧
      (p.referencesBelow base sidebarPlace).map (·.2) = p.sidebarPath?.toList ∧
      (p.referencesBelow base stylesheetPlace).map (·.2) = p.stylesheets ∧
      ((Diagnostics.ofFindings base p.check).errors = [] → p.ListsAll base)) ∧
    ∀ raw s warnings, Site.load raw = .ok (s, warnings) →
      (s.presetReferences stylesheetPlace).map (·.2) = s.stylesheets ∧
      (s.presetReferences sidebarPlace).head?.map (·.2) = s.sidebarPath? ∧
      ∀ p ∈ s.presetList, ∀ base, p.ListsAll base := by
  constructor
  · intro p base
    refine ⟨fun r hr => ?_, p.nodup_references base, p.references_eq_append base,
      p.map_below_sidebar base, p.map_below_stylesheet base, fun accepted =>
        listsAll_of_not_faultAt (not_faultAt_of_errors_eq_nil accepted) base⟩
    obtain ⟨steps, offers, path⟩ := mem_references_iff.1 hr
    exact ⟨steps, offers, offers.found, path⟩
  · intro raw s warnings loaded
    exact ⟨s.map_presetReferences_stylesheet, s.head?_presetReferences_sidebar, fun p hp base =>
      listsAll_of_not_faultAt (Site.not_faultAt_of_mem_presetList loaded hp) base⟩

/-- The second stylesheet of a site that is loaded is offered, and so it is listed once. -/
theorem Site.files_references_agree :
    load filesTable = .ok (filesSite, .empty) ∧
      filesSite.stylesheets = ["a.css", "/b.css"] ∧
      filesSite.presetReferences Preset.stylesheetPlace =
        [(⟨"presets[0][1].theme.customCss[0]"⟩, "a.css"),
          (⟨"presets[0][1].theme.customCss[1]"⟩, "/b.css")] ∧
      filesSite.sidebarPath? = some "./sidebars.js" ∧
      ∀ p ∈ filesSite.presetList,
        (Diagnostics.ofFindings .root p.check).errors = [] ∧
        p.Offers (Preset.stylesheetPlace ++ [.index 1]) (.string "/b.css") ∧
        (p.references .root).count (⟨"[1].theme.customCss[1]"⟩, "/b.css") = 1 := by
  have loaded : load filesTable = .ok (filesSite, .empty) := by decide +kernel
  obtain ⟨stylesheets, sidebar, listed⟩ := Preset.references_agree.2 _ _ _ loaded
  have placed : filesSite.presetReferences Preset.stylesheetPlace =
      [(⟨"presets[0][1].theme.customCss[0]"⟩, "a.css"),
        (⟨"presets[0][1].theme.customCss[1]"⟩, "/b.css")] := by decide +kernel
  rw [placed] at stylesheets
  have first : (filesSite.presetReferences Preset.sidebarPlace).head?.map (·.2) =
      some "./sidebars.js" := by decide +kernel
  refine ⟨loaded, stylesheets.symm, placed, sidebar ▸ first, fun p hp => ?_⟩
  have accepted : (Diagnostics.ofFindings .root p.check).errors = [] := by
    revert p
    decide +kernel
  have offers : p.Offers (Preset.stylesheetPlace ++ [.index 1]) (.string "/b.css") := by
    refine .item ?_
    revert p
    decide +kernel
  obtain ⟨text, same, _, once⟩ := (Preset.references_agree.1 p .root).2.2.2.2.2 accepted _ _ offers
  obtain rfl := Json.string.inj same
  have path : FieldPath.root.extend (Preset.stylesheetPlace ++ [.index 1]) =
      ⟨"[1].theme.customCss[1]"⟩ := by decide +kernel
  exact ⟨accepted, offers, path ▸ once⟩

end SiteManifest
