import SiteManifest.Proofs.Site.Layouts
import SiteManifest.Proofs.Site.Parts

/-!
# References to files

The files that a site names are collected part by part. In the value that is written of a site they
are the texts at certain places, and the search for missing files looks at each of them once.

## Main definitions

* `Json.textsAt`: the texts at some places of a value.
* `FileAt`: the places of a manifest where the name of a file can stand.
* `Json.writtenReferences`: the names of files in a manifest, in the order of the search.

## Main statements

* `Site.references_eq`: the files that a site names are those that its manifest names.
* `Site.checkReferences_of_load`: the search tells of every file that is missing, and of nothing else.
-/
namespace SiteManifest

/-! ## Texts at some places -/

/-- The same thing, counted from further out. -/
def Located.after (place : List Step) (x : Located α) : Located α := ⟨place ++ x.steps, x.what⟩

theorem Located.each_map {look : β → List (Located γ)} {f : α → β} {first : Nat} {as : List α} :
    Located.each look first (as.map f) = Located.each (fun a => look (f a)) first as := by
  induction as generalizing first with
  | nil => rfl
  | cons a as ih => rw [List.map_cons, Located.each, Located.each, ih]

theorem Located.each_eq_flatMap {look : α → List (Located β)} {first : Nat} {as : List α} :
    Located.each look first as =
      (as.zipIdx first).flatMap fun (a, i) => Located.below (.index i) (look a) := by
  induction as generalizing first with
  | nil => rfl
  | cons a as ih => rw [Located.each, ih, List.zipIdx_cons, List.flatMap_cons]

namespace Json

/-- The texts at some places, with these places. -/
def textsAt (v : Json) (places : List (List Step)) : List (Located String) :=
  places.filterMap fun steps => ((v.at? steps).bind asString?).map (⟨steps, ·⟩)

/-- Places within the part at a place, counted from the whole. -/
def inside (v : Json) (place : List Step) (places : Json → List (List Step)) : List (List Step) :=
  ((v.at? place).elim [] places).map (place ++ ·)

/-- Places within each of the items of a list, counted from the list. -/
def inEach (places : Json → List (List Step)) : Json → List (List Step)
  | .list vs => vs.zipIdx.flatMap fun (w, i) => (places w).map (.index i :: ·)
  | _ => []

variable {v w : Json} {place steps : List Step} {places : Json → List (List Step)}

theorem asString?_eq_some_iff {s : String} : v.asString? = some s ↔ v = .string s := by
  cases v <;> simp [asString?]

theorem mem_textsAt_iff {ps : List (List Step)} {x : Located String} :
    x ∈ v.textsAt ps ↔ x.steps ∈ ps ∧ v.at? x.steps = some (.string x.what) := by
  obtain ⟨steps, text⟩ := x
  simp [textsAt, Option.bind_eq_some_iff, asString?_eq_some_iff]

theorem textsAt_append {ps qs : List (List Step)} :
    v.textsAt (ps ++ qs) = v.textsAt ps ++ v.textsAt qs := List.filterMap_append

theorem textsAt_cons {ps : List (List Step)} :
    v.textsAt (steps :: ps) = v.textsAt [steps] ++ v.textsAt ps := by
  rw [← textsAt_append, List.singleton_append]

theorem textsAt_nil : v.textsAt [[]] = (v.asString?.map Located.here).toList := by
  rw [textsAt]
  cases h : v.asString? <;> simp [h, Located.here]

/-- The texts within a part are those of the part. -/
theorem textsAt_map_append {ps : List (List Step)} :
    v.textsAt (ps.map (place ++ ·)) =
      (v.at? place).elim [] fun w => (w.textsAt ps).map (Located.after place) := by
  rw [textsAt, List.filterMap_map]
  cases found : v.at? place with
  | none => simp [at?_append, found]
  | some w =>
    rw [Option.elim_some, textsAt, List.map_filterMap]
    congr 1
    funext steps
    simp [at?_append, found, Located.after, Function.comp_def]

theorem textsAt_inside :
    v.textsAt (v.inside place places) =
      (v.at? place).elim [] fun w => (w.textsAt (places w)).map (Located.after place) := by
  rw [inside, textsAt_map_append]
  cases v.at? place <;> rfl

/-- The texts within the items of a list are those of each item. -/
theorem textsAt_inEach {vs : List Json} :
    (Json.list vs).textsAt (inEach places (.list vs)) =
      Located.each (fun w => w.textsAt (places w)) 0 vs := by
  have item (x : Json × Nat) (hx : x ∈ vs.zipIdx) :
      (Json.list vs).textsAt ((places x.1).map (.index x.2 :: ·)) =
        Located.below (.index x.2) (x.1.textsAt (places x.1)) := by
    obtain ⟨w, i⟩ := x
    have found : (Json.list vs).at? [.index i] = some w := by
      simpa [at?, part?, List.mem_zipIdx_iff_getElem?] using hx
    have texts : (Json.list vs).textsAt ((places w).map ([.index i] ++ ·)) = _ := textsAt_map_append
    rw [found] at texts
    exact texts
  rw [Located.each_eq_flatMap, textsAt, inEach, List.filterMap_flatMap]
  exact List.flatMap_congr item

theorem mem_inside_iff :
    steps ∈ v.inside place places ↔
      ∃ w rest, v.at? place = some w ∧ rest ∈ places w ∧ place ++ rest = steps := by
  rw [inside, List.mem_map]
  cases v.at? place <;> simp

theorem mem_inEach_iff :
    steps ∈ v.inEach places ↔
      ∃ vs i w rest, v = .list vs ∧ vs[i]? = some w ∧ rest ∈ places w ∧
        .index i :: rest = steps := by
  cases v <;> simp [inEach, List.mem_zipIdx_iff_getElem?]
  grind

theorem nodup_inside (h : ∀ w, (places w).Nodup) : (v.inside place places).Nodup := by
  rw [inside, List.nodup_map_iff (List.append_right_injective place)]
  cases v.at? place with
  | none => exact .nil
  | some w => exact h w

theorem nodup_inEach (h : ∀ w, (places w).Nodup) : (v.inEach places).Nodup := by
  unfold inEach
  split
  next vs =>
    have indices : vs.zipIdx.Pairwise fun x y => x.2 ≠ y.2 := by
      have once : (vs.zipIdx.map Prod.snd).Nodup := by
        rw [List.zipIdx_map_snd]
        exact List.nodup_range'
      exact List.pairwise_map.1 once
    refine List.nodup_flatMap.2 ⟨fun x _ => ?_, indices.imp fun other steps hx hy => ?_⟩
    · exact (List.nodup_map_iff fun p q same => (List.cons.inj same).2).2 (h x.1)
    · -- Places within different items start with different indices.
      obtain ⟨p, _, rfl⟩ := List.mem_map.1 hx
      obtain ⟨q, _, same⟩ := List.mem_map.1 hy
      exact other (Step.index.inj (List.cons.inj same).1).symm
  next => exact .nil

theorem sublist_textsAt {ps : List (List Step)} : ((v.textsAt ps).map (·.steps)).Sublist ps := by
  induction ps with
  | nil => exact .slnil
  | cons steps ps ih =>
    rw [textsAt, List.filterMap_cons]
    split
    next => exact ih.cons steps
    next x found =>
      obtain ⟨_, _, rfl⟩ := Option.map_eq_some_iff.1 found
      exact ih.cons_cons steps

/-! ## The names of files in a manifest -/

/-- The places at which a navbar names images. -/
def logoPlaces : List (List Step) :=
  [[.key "logo", .key "src"], [.key "logo", .key "srcDark"]]

/-- The places at which a manifest names images. -/
def imagePlaces : List (List Step) :=
  [.key "favicon"] :: (logoPlaces.map ([.key "navbar"] ++ ·) ++
    logoPlaces.map ([.key "themeConfig", .key "navbar"] ++ ·))

/-- The places at which a preset names files, its sidebar first. The stylesheets are one text or a
list of them. -/
def optionPlaces (preset : Json) : List (List Step) :=
  [.index 1, .key "docs", .key "sidebarPath"] ::
    preset.inside [.index 1, .key "theme", .key "customCss"]
      fun stylesheets => [] :: stylesheets.inEach fun _ => [[]]

/-- The places at which presets name files. -/
def presetPlaces (v : Json) : List (List Step) :=
  v.inside [.key "presets"] (inEach optionPlaces)

/-- The names of files in a manifest, in the order in which the files are looked for. -/
def writtenReferences (v : Json) : List (Located Reference) :=
  (v.textsAt imagePlaces).map (Located.map (⟨·, .static⟩)) ++
    (v.textsAt v.presetPlaces).map (Located.map (⟨·, .site⟩))

end Json

/-! ## Names of files by parts -/

theorem Navbar.textsAt_logoPlaces (n : Navbar) :
    (shape.write n).textsAt Json.logoPlaces = n.images := by
  cases n with
  | bare links => rfl
  | table t =>
    have logo := (part?_write_table t).1
    unfold images logo?
    cases hl : t.logo with
    | none =>
      rw [hl] at logo
      simp [Json.textsAt, Json.logoPlaces, Json.at?, logo, hl, Located.below]
    | some l =>
      obtain ⟨src, srcDark⟩ := l.part?_write
      rw [hl] at logo
      cases hd : l.srcDark <;>
        simp [Json.textsAt, Json.logoPlaces, Json.at?, logo, src, srcDark, hl, hd, Located.below,
          Located.under, Logo.images, Json.asString?]

theorem Json.part?_key (v : Json) (key : String) : v.part? (.key key) = v.get? key := by
  cases v <;> rfl

/-- An option of a preset, and the parts of it. -/
theorem Preset.at?_option (p : Preset) {key inner : String} {rest : List Step} :
    (shape.write p).at? (.index 1 :: .key key :: .key inner :: rest) =
      (p.option? [key, inner]).bind fun v => v.at? rest := by
  cases p with
  | plain name => rfl
  | configured name options =>
    have pair : (shape.write (.configured name options)).part? (.index 1) =
        some (.table options) := rfl
    have follow (w : Json) : w.follow? [key, inner] =
        (w.get? key).bind fun v => (v.get? inner).bind some := rfl
    have found : (Preset.configured name options).option? [key, inner] =
        (Json.table options).follow? [key, inner] := rfl
    simp only [Json.at?, pair, found, follow, Json.part?_key, Option.bind_some, Option.bind_assoc]

theorem Preset.at?_option_self (p : Preset) {key inner : String} :
    (shape.write p).at? [.index 1, .key key, .key inner] = p.option? [key, inner] := by
  rw [p.at?_option]
  exact Option.bind_fun_some _

theorem Preset.at?_option_eq_some_iff {p : Preset} {key inner : String} {rest : List Step}
    {w : Json} :
    (shape.write p).at? ([.index 1, .key key, .key inner] ++ rest) = some w ↔
      ∃ v, p.option? [key, inner] = some v ∧ v.at? rest = some w := by
  rw [← Option.bind_eq_some_iff, ← p.at?_option]
  rfl

theorem Preset.textsAt_stylesheets (v : Json) :
    v.textsAt ([] :: v.inEach fun _ => [[]]) = textsOf v := by
  rw [Json.textsAt_cons, Json.textsAt_nil]
  cases v with
  | list vs =>
    rw [Json.textsAt_inEach]
    simp only [Json.textsAt_nil]
    rfl
  | null | bool | number | string | table => rfl

theorem Preset.textsAt_optionPlaces (p : Preset) :
    (shape.write p).textsAt (Json.optionPlaces (shape.write p)) = p.files := by
  have sidebar : (shape.write p).textsAt [[.index 1, .key "docs", .key "sidebarPath"]] =
      (p.sidebarPath?.map
        (Located.mk [.index 1, .key "docs", .key "sidebarPath"])).toList := by
    rw [Json.textsAt, List.filterMap_cons, p.at?_option, sidebarPath?]
    cases p.option? ["docs", "sidebarPath"] with
    | none => rfl
    | some v => cases v <;> rfl
  rw [Json.optionPlaces, Json.textsAt_cons, sidebar, Json.textsAt_inside, p.at?_option_self]
  simp only [textsAt_stylesheets]
  unfold files stylesheetTexts
  cases p.sidebarPath? <;> cases p.option? ["theme", "customCss"] <;>
    simp [Located.below, Located.under, Located.here, Located.after, Function.comp_def]

/-! ## Names of files of the whole -/

namespace Site

variable {s : Site}

theorem textsAt_imagePlaces (once : ¬s.WrittenTwice s.navbar Theme.navbar) :
    s.toJson.textsAt Json.imagePlaces =
      (s.favicon.map fun icon => ⟨[.key "favicon"], icon⟩).toList ++ s.navbarImages := by
  obtain ⟨favicon, navbar, _⟩ := s.part?_toJson_optional
  have icon : s.toJson.textsAt [[.key "favicon"]] =
      (s.favicon.map fun icon => (⟨[.key "favicon"], icon⟩ : Located String)).toList := by
    rw [Json.textsAt, List.filterMap_cons, Json.at?, favicon]
    cases s.favicon <;> rfl
  rw [Json.imagePlaces, Json.textsAt_cons, icon, Json.textsAt_append, Json.textsAt_map_append,
    Json.textsAt_map_append, at?_outer navbar, at?_inner fun t => t.part?_write.1]
  unfold navbarImages placedNavbar placed
  cases hn : s.navbar with
  | some n =>
    rw [inner_eq_none once hn]
    simp [n.textsAt_logoPlaces, Located.after]
  | none => cases s.theme.bind Theme.navbar <;> simp [Navbar.textsAt_logoPlaces, Located.after]

theorem textsAt_presetPlaces (s : Site) :
    s.toJson.textsAt s.toJson.presetPlaces =
      Located.below (.key "presets") (Located.each Preset.files 0 s.presetList) := by
  obtain ⟨_, _, _, _, _, presets⟩ := s.part?_toJson_optional
  have found : s.toJson.at? [.key "presets"] =
      s.presets.map fun presets => .list (presets.map Preset.shape.write) := by
    rw [Json.at?, presets]
    cases s.presets <;> rfl
  rw [Json.presetPlaces, Json.textsAt_inside, found, presetList]
  cases s.presets with
  | none => rfl
  | some ps =>
    rw [Option.map_some, Option.elim_some, Option.getD_some, Json.textsAt_inEach, Located.each_map]
    simp only [Preset.textsAt_optionPlaces]
    rfl

/-- The files that a site names are those that its manifest names, in their order. -/
theorem references_eq (once : ¬s.WrittenTwice s.navbar Theme.navbar) :
    s.references = s.toJson.writtenReferences := by
  rw [references, Json.writtenReferences, textsAt_imagePlaces once, textsAt_presetPlaces]

end Site

/-! ## Where files are named -/

/-- Where the name of a file can stand in a manifest, and the directory that the file is in. Every
text under the two keys of a preset is one, however deep. -/
inductive FileAt : Base → List Step → Prop
  | favicon : FileAt .static [.key "favicon"]
  | logo {place : List Step} {key : String}
    (hp : place = [.key "navbar"] ∨ place = [.key "themeConfig", .key "navbar"])
    (hk : key = "src" ∨ key = "srcDark") : FileAt .static (place ++ [.key "logo", .key key])
  | sidebar {i : Nat} {rest : List Step} :
    FileAt .site ([.key "presets", .index i, .index 1, .key "docs", .key "sidebarPath"] ++ rest)
  | stylesheets {i : Nat} {rest : List Step} :
    FileAt .site ([.key "presets", .index i, .index 1, .key "theme", .key "customCss"] ++ rest)

namespace Json

variable {v : Json} {steps : List Step}

theorem mem_imagePlaces_iff : steps ∈ imagePlaces ↔ FileAt .static steps := by
  constructor
  · intro h
    simp only [imagePlaces, logoPlaces, List.map_cons, List.map_nil, List.cons_append,
      List.nil_append, List.mem_cons, List.not_mem_nil, or_false] at h
    rcases h with rfl | rfl | rfl | rfl | rfl
    · exact .favicon
    · exact .logo (.inl rfl) (.inl rfl)
    · exact .logo (.inl rfl) (.inr rfl)
    · exact .logo (.inr rfl) (.inl rfl)
    · exact .logo (.inr rfl) (.inr rfl)
  · rintro (_ | ⟨rfl | rfl, rfl | rfl⟩) <;> simp [imagePlaces, logoPlaces]

theorem fileAt_of_mem_presetPlaces (h : steps ∈ v.presetPlaces) : FileAt .site steps := by
  obtain ⟨_, _, _, inList, rfl⟩ := mem_inside_iff.1 h
  obtain ⟨_, i, w, rest, rfl, _, option, rfl⟩ := mem_inEach_iff.1 inList
  rcases List.mem_cons.1 option with rfl | stylesheets
  · exact @FileAt.sidebar i []
  · obtain ⟨_, below, _, _, rfl⟩ := mem_inside_iff.1 stylesheets
    exact @FileAt.stylesheets i below

/-- A preset names files among its options, under plain keys. -/
theorem exists_plainSteps_of_mem_optionPlaces {preset : Json} (h : steps ∈ preset.optionPlaces) :
    ∃ rest, steps = .index 1 :: rest ∧ FieldPath.PlainSteps rest := by
  rcases List.mem_cons.1 h with rfl | stylesheets
  · exact ⟨_, rfl, by decide +kernel⟩
  · obtain ⟨_, below, _, inRow, rfl⟩ := mem_inside_iff.1 stylesheets
    rcases List.mem_cons.1 inRow with rfl | item
    · exact ⟨_, rfl, by decide +kernel⟩
    · obtain ⟨_, i, _, _, _, _, here, rfl⟩ := mem_inEach_iff.1 item
      obtain rfl := List.mem_singleton.1 here
      exact ⟨_, rfl, by decide +kernel, by decide +kernel, trivial⟩

/-- No place of a preset is looked at twice. -/
theorem nodup_optionPlaces (preset : Json) : preset.optionPlaces.Nodup := by
  have stylesheets : (preset.inside [.index 1, .key "theme", .key "customCss"]
      fun stylesheets => [] :: stylesheets.inEach fun _ => [[]]).Nodup := by
    apply nodup_inside
    intro w
    refine List.nodup_cons.2 ⟨fun h => ?_, nodup_inEach fun _ => List.nodup_singleton []⟩
    obtain ⟨_, _, _, _, _, _, _, same⟩ := mem_inEach_iff.1 h
    contradiction
  refine List.nodup_cons.2 ⟨fun h => ?_, stylesheets⟩
  obtain ⟨_, _, _, _, same⟩ := mem_inside_iff.1 h
  simp at same

/-- No place is looked at twice. -/
theorem nodup_presetPlaces (v : Json) : v.presetPlaces.Nodup :=
  nodup_inside fun _ => nodup_inEach nodup_optionPlaces

theorem at?_string_eq_some_iff {s t : String} :
    (Json.string s).at? steps = some (.string t) ↔ steps = [] ∧ s = t := by
  cases steps <;> simp [at?, part?]

end Json

namespace Preset

variable {p : Preset}

/-- Without faults there is a single text under the key of the sidebar. -/
theorem at?_sidebar (sound : ∀ steps, ¬p.FaultAt steps) {rest : List Step} {text : String}
    (h : (shape.write p).at? ([.index 1, .key "docs", .key "sidebarPath"] ++ rest) =
      some (.string text)) : rest = [] := by
  obtain ⟨v, hv, found⟩ := at?_option_eq_some_iff.1 h
  have named : NamesFile v := by
    by_contra bad
    exact sound _ (.sidebarPath hv bad)
  obtain ⟨s, rfl, _⟩ := named
  exact (Json.at?_string_eq_some_iff.1 found).1

/-- Without faults the texts under the key of the stylesheets are one text or those of a list. -/
theorem at?_stylesheets (sound : ∀ steps, ¬p.FaultAt steps) {rest : List Step} {text : String}
    (h : (shape.write p).at? ([.index 1, .key "theme", .key "customCss"] ++ rest) =
      some (.string text)) :
    ∃ v, (shape.write p).at? [.index 1, .key "theme", .key "customCss"] = some v ∧
      rest ∈ [] :: v.inEach fun _ => [[]] := by
  obtain ⟨v, hv, found⟩ := at?_option_eq_some_iff.1 h
  refine ⟨v, p.at?_option_self.trans hv, ?_⟩
  by_cases isList : ∃ vs, v = .list vs
  · obtain ⟨vs, rfl⟩ := isList
    cases rest with
    | nil => exact .head _
    | cons step rest =>
      obtain ⟨w, hw, below⟩ := Json.at?_cons_eq_some_iff.1 found
      cases step with
      | key => contradiction
      | index i =>
        have named : NamesFile w := by
          by_contra bad
          exact sound _ (.stylesheet hv hw bad)
        obtain ⟨s, rfl, _⟩ := named
        obtain ⟨rfl, _⟩ := Json.at?_string_eq_some_iff.1 below
        exact .tail _ (Json.mem_inEach_iff.2 ⟨vs, i, _, [], rfl, hw, .head _, rfl⟩)
  · have named : NamesFile v := by
      by_contra bad
      exact sound _ (.customCss hv (fun vs same => isList ⟨vs, same⟩) bad)
    obtain ⟨s, rfl, _⟩ := named
    rw [(Json.at?_string_eq_some_iff.1 found).1]
    exact .head _

end Preset

/-! ## The search for missing files -/

namespace Site

variable {s : Site} {steps : List Step}

theorem at?_preset {i : Nat} {w : Json}
    (h : s.toJson.at? (.key "presets" :: .index i :: steps) = some w) :
    ∃ presets p, s.presets = some presets ∧ presets[i]? = some p ∧
      (Preset.shape.write p).at? steps = some w := by
  obtain ⟨_, _, _, _, _, found⟩ := s.part?_toJson_optional
  obtain ⟨v, hv, h⟩ := Json.at?_cons_eq_some_iff.1 h
  obtain ⟨presets, hp, rfl⟩ := Option.map_eq_some_iff.1 (found.symm.trans hv)
  obtain ⟨u, hu, h⟩ := Json.at?_cons_eq_some_iff.1 h
  obtain ⟨p, hi, rfl⟩ : ∃ p, presets[i]? = some p ∧ Preset.shape.write p = u := by
    simpa [Json.part?] using hu
  exact ⟨presets, p, hp, hi, h⟩

theorem mem_presetPlaces {i : Nat} {presets : List Preset} {p : Preset}
    (hp : s.presets = some presets) (hi : presets[i]? = some p)
    (h : steps ∈ Json.optionPlaces (Preset.shape.write p)) :
    .key "presets" :: .index i :: steps ∈ s.toJson.presetPlaces := by
  obtain ⟨_, _, _, _, _, found⟩ := s.part?_toJson_optional
  have list : s.toJson.at? [.key "presets"] = some (.list (presets.map Preset.shape.write)) := by
    rw [Json.at?, found, hp]
    rfl
  have item : (presets.map Preset.shape.write)[i]? = some (Preset.shape.write p) := by
    rw [List.getElem?_map, hi, Option.map_some]
  exact Json.mem_inside_iff.2
    ⟨_, _, list, Json.mem_inEach_iff.2 ⟨_, i, _, steps, rfl, item, h, rfl⟩, rfl⟩

/-- In a site without faults, every text where a preset can name files is looked at. -/
theorem mem_presetPlaces_of_fileAt (sound : ∀ steps, ¬s.FaultAt steps) {text : String}
    (file : FileAt .site steps) (h : s.toJson.at? steps = some (.string text)) :
    steps ∈ s.toJson.presetPlaces := by
  cases file with
  | @sidebar i rest =>
    obtain ⟨presets, p, hp, hi, found⟩ := at?_preset h
    have preset (q : List Step) : ¬p.FaultAt q := fun fault => sound _ (.presets hp (.intro hi fault))
    obtain rfl := p.at?_sidebar preset found
    exact mem_presetPlaces hp hi (.head _)
  | @stylesheets i rest =>
    obtain ⟨presets, p, hp, hi, found⟩ := at?_preset h
    have preset (q : List Step) : ¬p.FaultAt q := fun fault => sound _ (.presets hp (.intro hi fault))
    obtain ⟨v, hv, inList⟩ := p.at?_stylesheets preset found
    exact mem_presetPlaces hp hi (.tail _ (Json.mem_inside_iff.2 ⟨v, rest, hv, inList, rfl⟩))

end Site

namespace Json

variable {v : Json}

theorem mem_map_mk_iff {base : Base} {texts : List (Located String)} {r : Located Reference} :
    r ∈ texts.map (Located.map (⟨·, base⟩)) ↔
      r.what.base = base ∧ ⟨r.steps, r.what.text⟩ ∈ texts := by
  obtain ⟨steps, text, _⟩ := r
  constructor
  · intro h
    obtain ⟨x, hx, same⟩ := List.mem_map.1 h
    obtain ⟨rfl, rfl, rfl⟩ : x.steps = steps ∧ x.what = text ∧ base = _ := by
      simpa [Located.map] using same
    exact ⟨rfl, hx⟩
  · rintro ⟨rfl, h⟩
    exact List.mem_map.2 ⟨_, h, rfl⟩

theorem steps_comp_map_mk (base : Base) :
    (fun r : Located Reference => r.steps) ∘ Located.map (fun text => Reference.mk text base) =
      fun x : Located String => x.steps := rfl

theorem head?_of_fileAt_site {steps : List Step} (h : FileAt .site steps) :
    steps.head? = some (.key "presets") := by
  cases h <;> rfl

theorem head?_of_fileAt_static {steps : List Step} (h : FileAt .static steps) :
    steps.head? ≠ some (.key "presets") := by
  cases h with
  | favicon => decide
  | logo hp hk => rcases hp with rfl | rfl <;> simp

/-- No place is looked at twice. -/
theorem nodup_writtenReferences (v : Json) : (v.writtenReferences.map (·.steps)).Nodup := by
  rw [writtenReferences, List.map_append, List.map_map, List.map_map, steps_comp_map_mk,
    steps_comp_map_mk]
  have images : imagePlaces.Nodup := by decide
  refine List.nodup_append'.2 ⟨images.sublist sublist_textsAt,
    v.nodup_presetPlaces.sublist sublist_textsAt, ?_⟩
  intro steps image option
  have static := mem_imagePlaces_iff.1 (sublist_textsAt.subset image)
  have site := fileAt_of_mem_presetPlaces (sublist_textsAt.subset option)
  exact head?_of_fileAt_static static (head?_of_fileAt_site site)

end Json

namespace Site

variable {s : Site}

/-- The names of files in the manifest of a site without faults are all texts that can be one. -/
theorem mem_writtenReferences_iff (sound : ∀ steps, ¬s.FaultAt steps) {r : Located Reference} :
    r ∈ s.toJson.writtenReferences ↔
      FileAt r.what.base r.steps ∧ s.toJson.at? r.steps = some (.string r.what.text) := by
  rw [Json.writtenReferences, List.mem_append, Json.mem_map_mk_iff, Json.mem_map_mk_iff,
    Json.mem_textsAt_iff, Json.mem_textsAt_iff, Json.mem_imagePlaces_iff]
  constructor
  · rintro (⟨base, file, text⟩ | ⟨base, place, text⟩)
    · exact ⟨base ▸ file, text⟩
    · exact ⟨base ▸ Json.fileAt_of_mem_presetPlaces place, text⟩
  · rintro ⟨file, text⟩
    cases base : r.what.base with
    | static => exact .inl ⟨rfl, base ▸ file, text⟩
    | site => exact .inr ⟨rfl, mem_presetPlaces_of_fileAt sound (base ▸ file) text, text⟩

/-- What is told of a file that is missing: where its name stands, the name, and the path at which
the file should be. -/
def missingError (r : Located Reference) (path : Path) : Diagnostic where
  field := .ofSteps r.steps
  message := "file '" ++ r.what.text ++ "' not found"
  hint := some ("expected at " ++ path.text)

theorem missingAnswer_eq_ok_iff {errors : List Diagnostic} :
    missingAnswer errors = .ok () ↔ errors = [] := by
  unfold missingAnswer
  split <;> simp_all

/-- The search for the files of a loaded site is exact. It tells, in their order, of those names of
files in the manifest that are no URLs and lead to no file, of each of them once, and of nothing
else. So it passes exactly if every text that can be the name of a file leads to one. -/
theorem checkReferences_of_load {raw : Json} {s : Site} {warnings : Diagnostics}
    (h : load raw = .ok (s, warnings)) (root static : Path) (fs : FileSystem) :
    (s.checkReferences (m := StateM FileSystem) root static).run fs =
        (missingAnswer ((s.toJson.writtenReferences.filter fun r =>
          !isExternal r.what.text && fs.kind? (r.what.path fs.kind? root static) ≠ some .file).map
            fun r => missingError r (r.what.path fs.kind? root static)), fs) ∧
      (s.toJson.writtenReferences.map (·.steps)).Nodup ∧
      (∀ r, r ∈ s.toJson.writtenReferences ↔
        FileAt r.what.base r.steps ∧ s.toJson.at? r.steps = some (.string r.what.text)) ∧
      (((s.checkReferences (m := StateM FileSystem) root static).run fs).1 = .ok () ↔
        ∀ steps text base, FileAt base steps → s.toJson.at? steps = some (.string text) →
          isExternal text = true ∨
            fs.kind? (Reference.path ⟨text, base⟩ fs.kind? root static) = some .file) := by
  have sound := not_faultAt_of_load h
  have written (r : Located Reference) := mem_writtenReferences_iff sound (r := r)
  have once : ¬s.WrittenTwice s.navbar Theme.navbar := fun twice => sound _ (.navbarTwice twice)
  have errors : (s.missingFiles fs.kind? root static).map (Finding.diagnostic .root) =
      (s.toJson.writtenReferences.filter (·.what.isMissing fs.kind? root static)).map
        fun r => missingError r (r.what.path fs.kind? root static) := by
    rw [missingFiles, references_eq once, List.map_map]
    rfl
  have answer := s.checkReferences_eq root static fs
  rw [errors] at answer
  refine ⟨answer, s.toJson.nodup_writtenReferences, written, ?_⟩
  rw [answer, missingAnswer_eq_ok_iff, List.map_eq_nil_iff, List.filter_eq_nil_iff]
  constructor
  · intro present steps text base file found
    have here := present ⟨steps, text, base⟩ ((written _).2 ⟨file, found⟩)
    simpa [Reference.isMissing, or_iff_not_imp_left] using here
  · intro present r hr
    obtain ⟨file, found⟩ := (written r).1 hr
    have here := present _ _ _ file found
    simpa [Reference.isMissing, or_iff_not_imp_left] using here

/-- A manifest that names an icon elsewhere, a logo in the theme table, a sidebar and two
stylesheets. -/
def filesTable : Json := .table [("title", .string "T"), ("url", .string "https://example.com"),
  ("baseUrl", .string "/"), ("favicon", .string "https://example.com/icon.png"),
  ("themeConfig", .table [("navbar", .table [("logo", .table [("src", .string "logo.svg")])])]),
  ("presets", .list [.list [.string "p", .table [
    ("docs", .table [("sidebarPath", .string "./sidebars.js")]),
    ("theme", .table [("customCss", .list [.string "a.css", .string "/b.css"])])]]])]

def filesSite : Site where
  title := "T"
  tagline := none
  url := "https://example.com"
  baseUrl := "/"
  favicon := some "https://example.com/icon.png"
  organizationName := none
  projectName := none
  navbar := none
  footer := none
  prism := none
  theme := some ⟨none, none, some (.table ⟨none, some ⟨none, "logo.svg", none⟩, none, none⟩), none⟩
  presets := some [.configured "p" [
    ("docs", .table [("sidebarPath", .string "./sidebars.js")]),
    ("theme", .table [("customCss", .list [.string "a.css", .string "/b.css"])])]]

/-- A file system with one of the stylesheets and nothing else. -/
def oneStylesheet : FileSystem where
  tree :=
    { entry := fun place =>
        if place = [] then some .directory
        else if place = ["a.css"] then some (.file .empty)
        else none
      root := rfl
      parent := by grind }
  here := []
  proper := properPlace_nil

theorem files_checkReferences_of_load :
    load filesTable = .ok (filesSite, .empty) ∧
      (filesSite.checkReferences (m := StateM FileSystem) ⟨"/"⟩ staticDirectory).run oneStylesheet =
        (missingAnswer [
          ⟨⟨"themeConfig.navbar.logo.src"⟩, "file 'logo.svg' not found",
            some "expected at /static/logo.svg"⟩,
          ⟨⟨"presets[0][1].docs.sidebarPath"⟩, "file './sidebars.js' not found",
            some "expected at /sidebars.js"⟩,
          ⟨⟨"presets[0][1].theme.customCss[1]"⟩, "file '/b.css' not found",
            some "expected at /b.css"⟩], oneStylesheet) := by
  have loaded : load filesTable = .ok (filesSite, .empty) := by decide +kernel
  refine ⟨loaded, ?_⟩
  rw [(checkReferences_of_load loaded ⟨"/"⟩ staticDirectory oneStylesheet).1]
  apply congrArg fun errors => (missingAnswer errors, oneStylesheet)
  decide +kernel

end Site

end SiteManifest
