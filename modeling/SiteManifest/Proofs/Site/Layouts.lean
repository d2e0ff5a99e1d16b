import SiteManifest.Manifest.File
import SiteManifest.Proofs.FieldPath
import SiteManifest.Proofs.Site.Nesting
import SiteManifest.Proofs.Site.Told

/-!
# The two layouts of a manifest

Navbar, footer and prism may stand at the top level or in the theme table, and moving them there
makes no difference but for the paths in what is told of them.

## Main definitions

* `nestedDiagnostic`: what is told of a finding after sections were moved into the theme table.

## Main statements

* `Site.check_nest`: the checks find the same in either layout.
* `Site.references_nest`: the same files are named in either layout.
* `Nests.findings_perm`: the same is found of a manifest in either layout.
* `Site.load_nested`: either layout is loaded as the other one.
-/
namespace SiteManifest

variable {sections : List String}

/-! ## What is read of a site -/

namespace Site

variable {s : Site}

theorem placed_nest (noTheme : s.theme = none) {key : String} {o : Option α}
    {inner : Theme → Option α}
    (moved : (s.nest sections).theme.bind inner = inside sections key o) :
    (s.nest sections).placed key (outside sections key o) inner =
      (s.placed key o inner).map (Located.nest sections) := by
  unfold placed
  rw [noTheme, moved]
  unfold outside inside
  by_cases h : key ∈ sections <;> cases o <;>
    simp [h, Located.nest, Located.under, leadsInto]

theorem placedNavbar_nest (noTheme : s.theme = none) :
    (s.nest sections).placedNavbar = s.placedNavbar.map (Located.nest sections) :=
  placed_nest noTheme rfl

theorem placedFooter_nest (noTheme : s.theme = none) :
    (s.nest sections).placedFooter = s.placedFooter.map (Located.nest sections) :=
  placed_nest noTheme rfl

theorem placedPrism_nest (noTheme : s.theme = none) :
    (s.nest sections).placedPrism = s.placedPrism.map (Located.nest sections) :=
  placed_nest noTheme rfl

theorem what_comp_nest : (fun x : Located α => (x.nest sections).what) = fun x => x.what :=
  funext Located.what_nest

theorem activeNavbar_nest (noTheme : s.theme = none) :
    (s.nest sections).activeNavbar = s.activeNavbar := by
  rw [activeNavbar, placedNavbar_nest noTheme, Option.map_map]
  exact congrArg (Option.map · _) what_comp_nest

theorem activeFooter_nest (noTheme : s.theme = none) :
    (s.nest sections).activeFooter = s.activeFooter := by
  rw [activeFooter, placedFooter_nest noTheme, Option.map_map]
  exact congrArg (Option.map · _) what_comp_nest

theorem activePrism_nest (noTheme : s.theme = none) :
    (s.nest sections).activePrism = s.activePrism := by
  rw [activePrism, placedPrism_nest noTheme, Option.map_map]
  exact congrArg (Option.map · _) what_comp_nest

theorem navbarLinks_nest (noTheme : s.theme = none) :
    (s.nest sections).navbarLinks = s.navbarLinks := by
  rw [navbarLinks, activeNavbar_nest noTheme, navbarLinks]

theorem footerSections_nest (noTheme : s.theme = none) :
    (s.nest sections).footerSections = s.footerSections := by
  rw [footerSections, activeFooter_nest noTheme, footerSections]

theorem summary_nest (noTheme : s.theme = none) : (s.nest sections).summary = s.summary := by
  rw [summary, navbarLinks_nest noTheme, footerSections_nest noTheme, summary]
  rfl

/-! ## What the checks find -/

theorem section_nest {key : String} {o : Option α} {look : α → List Finding} :
    ((Located.below (.key key) (o.elim [] look)).map (Located.nest sections)).Perm
      (Located.below (.key key) ((outside sections key o).elim [] look) ++
        Located.below (.key "themeConfig")
          (Located.below (.key key) ((inside sections key o).elim [] look))) := by
  unfold outside inside
  by_cases h : key ∈ sections
  · rw [Located.map_nest_below_of_mem h, if_pos h, if_pos h]
    rfl
  · rw [Located.map_nest_below_of_not_mem h, if_neg h, if_neg h]
    exact .of_eq (List.append_nil _).symm

theorem checkOnce_outside_inside {key : String} {o : Option α} :
    checkOnce key (outside sections key o) (inside sections key o) = [] := by
  unfold checkOnce outside inside
  by_cases h : key ∈ sections <;> simp [h]

theorem checkTheme_nest :
    Located.below (.key "themeConfig")
        ((s.nest sections).theme.elim [] (s.nest sections).checkTheme) =
      Located.below (.key "themeConfig")
          (Located.below (.key "prism") ((inside sections "prism" s.prism).elim [] Prism.check)) ++
        Located.below (.key "themeConfig")
          (Located.below (.key "navbar")
            ((inside sections "navbar" s.navbar).elim [] Navbar.check)) ++
        Located.below (.key "themeConfig")
          (Located.below (.key "footer")
            ((inside sections "footer" s.footer).elim [] Footer.check)) := by
  simp only [nest, Option.elim_some, checkTheme, Theme.check, checkOnce_outside_inside,
    List.append_nil, Located.below_append]

/-- What is found in the theme table, next to what is found of the same sections outside it. -/
theorem regroup_perm (metadata navbar footer prism prism' navbar' footer' presets : List Finding) :
    (metadata ++ navbar ++ footer ++ prism ++ (prism' ++ navbar' ++ footer') ++ presets).Perm
      (metadata ++ (navbar ++ navbar') ++ (footer ++ footer') ++ (prism ++ prism') ++ presets) := by
  rw [List.perm_iff_count]
  intro f
  simp only [List.count_append]
  omega

/-- The checks find the same in either layout, and the sections in their order. -/
theorem check_nest (noTheme : s.theme = none)
    (movable : ∀ key ∈ sections, key ∈ ["navbar", "footer", "prism"]) :
    (s.nest sections).check.Perm (s.check.map (Located.nest sections)) := by
  have fixed (key : String) (other : key ∉ ["navbar", "footer", "prism"]) (found : List Finding) :
      (Located.below (.key key) found).map (Located.nest sections) =
        Located.below (.key key) found :=
    Located.map_nest_below_of_not_mem (fun h => other (movable key h)) found
  have metadata : s.checkMetadata.map (Located.nest sections) = s.checkMetadata := by
    simp only [checkMetadata, List.map_append, fixed "title" (by decide), fixed "url" (by decide),
      fixed "baseUrl" (by decide), fixed "favicon" (by decide)]
  have written : s.check.map (Located.nest sections) =
      s.checkMetadata ++
        (Located.below (.key "navbar") (s.navbar.elim [] Navbar.check)).map
          (Located.nest sections) ++
        (Located.below (.key "footer") (s.footer.elim [] Footer.check)).map
          (Located.nest sections) ++
        (Located.below (.key "prism") (s.prism.elim [] Prism.check)).map
          (Located.nest sections) ++
        Located.below (.key "presets") (Located.each Preset.check 0 s.presetList) := by
    simp only [check, noTheme, Option.elim_none, List.map_append, metadata,
      fixed "presets" (by decide)]
    simp [Located.below]
  rw [written, check, checkTheme_nest]
  -- The theme comes after the sections of the top level, and its prism comes first.
  apply List.Perm.trans (regroup_perm ..)
  exact ((((List.Perm.refl _).append section_nest.symm).append section_nest.symm).append
    section_nest.symm).append_right _

/-! ## Files -/

theorem placedNavbar_of_no_theme (noTheme : s.theme = none) :
    s.placedNavbar = s.navbar.map fun navbar => ⟨[.key "navbar"], navbar⟩ := by
  unfold placedNavbar placed
  cases s.navbar <;> simp [noTheme]

theorem navbarImages_nest (noTheme : s.theme = none) :
    (s.nest sections).navbarImages = s.navbarImages.map (Located.nest sections) := by
  unfold navbarImages
  rw [placedNavbar_nest noTheme, placedNavbar_of_no_theme noTheme]
  cases s.navbar with
  | none => rfl
  | some navbar =>
    by_cases h : "navbar" ∈ sections <;>
      simp [Located.nest, Located.under, leadsInto, h, Function.comp_def]

theorem map_nest_map (f : α → β) (xs : List (Located α)) :
    (xs.map (Located.map f)).map (Located.nest sections) =
      (xs.map (Located.nest sections)).map (Located.map f) := by
  rw [List.map_map, List.map_map]
  refine List.map_congr_left fun x _ => ?_
  have steps : (x.map f).steps = x.steps := rfl
  simp only [Function.comp_apply, Located.nest, steps]
  split <;> rfl

/-- The same files are named, in the same order. -/
theorem references_nest (noTheme : s.theme = none)
    (movable : ∀ key ∈ sections, key ∈ ["navbar", "footer", "prism"]) :
    (s.nest sections).references = s.references.map (Located.nest sections) := by
  have stays : "favicon" ∉ sections := fun h => absurd (movable _ h) (by decide)
  have presets : "presets" ∉ sections := fun h => absurd (movable _ h) (by decide)
  have favicon : (s.favicon.map fun icon => (⟨[.key "favicon"], icon⟩ : Located String)).toList.map
      (Located.nest sections) =
        (s.favicon.map fun icon => (⟨[.key "favicon"], icon⟩ : Located String)).toList := by
    cases s.favicon <;> simp [Located.nest, leadsInto, stays]
  simp only [references, List.map_append, map_nest_map, favicon,
    Located.map_nest_below_of_not_mem presets, navbarImages_nest noTheme]
  rfl

theorem missingFiles_nest (noTheme : s.theme = none)
    (movable : ∀ key ∈ sections, key ∈ ["navbar", "footer", "prism"])
    (kind : Path → Option Kind) (root static : Path) :
    (s.nest sections).missingFiles kind root static =
      (s.missingFiles kind root static).map (Located.nest sections) := by
  have kept : ((s.references.map (Located.nest sections)).filter
      fun x => x.what.isMissing kind root static) =
        (s.references.filter fun x => x.what.isMissing kind root static).map
          (Located.nest sections) := by
    rw [List.filter_map]
    simp only [Function.comp_def, Located.what_nest]
  rw [missingFiles, references_nest noTheme movable, kept, missingFiles, map_nest_map]

end Site

/-! ## Paths after the move -/

namespace FieldPath

theorem ofSteps_theme {key : String} (h : key ≠ "") (rest : List Step) :
    ofSteps (.key "themeConfig" :: .key key :: rest) =
      ⟨"themeConfig." ++ (ofSteps (.key key :: rest)).text⟩ := by
  have moved : (mk ("themeConfig." ++ key)).extend rest =
      ⟨"themeConfig." ++ ((mk key).extend rest).text⟩ := extend_opened (isRoot_mk h) rest
  rw [ofSteps_key, ofSteps_key, ← moved]
  rfl

end FieldPath

/-- The same diagnostic about something in the theme table. -/
def Diagnostic.inTheme (d : Diagnostic) : Diagnostic :=
  { d with field := ⟨"themeConfig." ++ d.field.text⟩ }

/-- The diagnostic of a finding after the sections were moved into the theme table. -/
def nestedDiagnostic (sections : List String) (f : Finding) : Diagnostic :=
  if leadsInto sections f.steps then (f.diagnostic .root).inTheme else f.diagnostic .root

theorem Finding.isError_nest (f : Finding) :
    Finding.isError (f.nest sections) = f.isError := by
  rw [isError, Located.what_nest, isError]

theorem Finding.diagnostic_nest (named : "" ∉ sections) (f : Finding) :
    Finding.diagnostic .root (f.nest sections) = nestedDiagnostic sections f := by
  obtain ⟨steps, issue⟩ := f
  unfold Located.nest nestedDiagnostic
  match steps with
  | [] | .index _ :: _ => rfl
  | .key key :: rest =>
    by_cases h : key ∈ sections
    · have nonempty : key ≠ "" := fun same => named (same ▸ h)
      have path := FieldPath.ofSteps_theme nonempty rest
      have moved : leadsInto sections (.key key :: rest) = true := by simpa [leadsInto] using h
      rw [if_pos moved, if_pos moved]
      exact congrArg (Diagnostic.mk · issue.message issue.hint?) path
    · have stays : ¬leadsInto sections (.key key :: rest) = true := by simpa [leadsInto] using h
      rw [if_neg stays, if_neg stays]

namespace Diagnostics

variable {found moved : List Finding}

/-- If the same is found in another order, after the move, the same is told in another order. -/
theorem perm_nest (named : "" ∉ sections) (h : moved.Perm (found.map (Located.nest sections)))
    (p : Bool → Bool) :
    ((moved.filter fun f => p f.isError).map (Finding.diagnostic .root)).Perm
      ((found.filter fun f => p f.isError).map (nestedDiagnostic sections)) := by
  refine ((h.filter _).map _).trans (.of_eq ?_)
  rw [List.filter_map, List.map_map]
  simp only [Function.comp_def, Finding.isError_nest, Finding.diagnostic_nest named]

end Diagnostics

/-! ## Looking for files -/

/-- The answer to a search for files that told of some that are missing. -/
def missingAnswer (errors : List Diagnostic) : Except Failure Unit :=
  if errors = [] then .ok () else .error (.unresolved ⟨errors, []⟩)

namespace Site

theorem ofFindings_missingFiles (s : Site) (kind : Path → Option Kind) (root static : Path) :
    Diagnostics.ofFindings .root (s.missingFiles kind root static) =
      ⟨(s.missingFiles kind root static).map (Finding.diagnostic .root), []⟩ := by
  have error : ∀ f ∈ s.missingFiles kind root static, f.isError = true := by
    intro f h
    obtain ⟨_, _, rfl⟩ := List.mem_map.1 h
    rfl
  have errors := List.filter_eq_self.2 error
  have warnings : (s.missingFiles kind root static).filter (!Finding.isError ·) = [] := by
    simpa [List.filter_eq_nil_iff] using error
  rw [Diagnostics.ofFindings, errors, warnings, List.map_nil]

/-- Looking for the files of a site changes nothing, and tells of every file that is missing. -/
theorem checkReferences_eq (s : Site) (root static : Path) (fs : FileSystem) :
    (s.checkReferences (m := StateM FileSystem) root static).run fs =
      (missingAnswer ((s.missingFiles fs.kind? root static).map (Finding.diagnostic .root)),
        fs) := by
  -- The kinds that are asked for are those of the whole file system.
  have kinds : (Disk.kinds (s.lookedUp root static) :
      StateM FileSystem (Path → Option Kind)).run fs = pure (fs.kind?, fs) := rfl
  rw [checkReferences, StateT.run_bind, kinds, pure_bind]
  simp only
  rw [ofFindings_missingFiles]
  cases (s.missingFiles fs.kind? root static).map (Finding.diagnostic .root) <;> rfl

end Site

/-! ## Loading either layout -/

namespace Nests

open Site

variable {members nested : Members}

theorem empty_not_mem (h : Nests sections members nested) : "" ∉ sections :=
  h.not_mem_of_not_movable (by decide)

/-- The same is found, one step further in where a section was moved. -/
theorem findings_perm (h : Nests sections members nested) {s : Site}
    (ok : (shape.decode (.table members)).result = .ok s) :
    (findings (shape.decode (.table nested))).Perm
      ((findings (shape.decode (.table members))).map (Located.nest sections)) := by
  obtain ⟨noTheme, ok'⟩ := h.result_eq_ok ok
  rw [findings_of_result_eq_ok ok, findings_of_result_eq_ok ok', List.map_append]
  exact (h.unknown_perm ok).append (check_nest noTheme h.movable)

theorem load_eq_ok_iff (h : Nests sections members nested) {t : Site} {warnings' : Diagnostics} :
    load (.table nested) = .ok (t, warnings') ↔
      ∃ s warnings, load (.table members) = .ok (s, warnings) ∧ s.nest sections = t ∧
        t.diagnostics = warnings' := by
  refine load_eq_ok_iff_of_result (fun _ => h.result_eq_ok_iff) fun s ok => ?_
  simp only [(h.findings_perm ok).mem_iff, List.forall_mem_map, Finding.isError_nest]

end Nests

namespace Site

/-- The two layouts are interchangeable. A manifest is read in either layout or in neither, and it
is loaded in either or in neither. What is read of the two sites and the search for their files do
not differ, and neither does what is told of them, but for the paths into the sections that were
moved and for the order. -/
theorem load_nested (sections : List String) (members nested : Members)
    (h : Nests sections members nested) :
    ((∃ s, (shape.decode (.table members)).result = .ok s) ↔
      ∃ t, (shape.decode (.table nested)).result = .ok t) ∧
    ((∃ loaded, load (.table members) = .ok loaded) ↔
      ∃ loaded, load (.table nested) = .ok loaded) ∧
    (∀ s t warnings warnings', load (.table members) = .ok (s, warnings) →
      load (.table nested) = .ok (t, warnings') →
      t.activeNavbar = s.activeNavbar ∧ t.activeFooter = s.activeFooter ∧
      t.activePrism = s.activePrism ∧ t.navbarLinks = s.navbarLinks ∧
      t.footerSections = s.footerSections ∧ t.summary = s.summary ∧
      t.sidebarPath? = s.sidebarPath? ∧ t.stylesheets = s.stylesheets ∧
      ∀ (fs : FileSystem) (root static : Path),
        (s.checkReferences (m := StateM FileSystem) root static).run fs =
          (missingAnswer
            ((s.missingFiles fs.kind? root static).map (Finding.diagnostic .root)), fs) ∧
        (t.checkReferences (m := StateM FileSystem) root static).run fs =
          (missingAnswer
            ((s.missingFiles fs.kind? root static).map (nestedDiagnostic sections)), fs)) ∧
    ((∃ s, (shape.decode (.table members)).result = .ok s) →
      told (.table members) = .ofFindings .root (findings (shape.decode (.table members))) ∧
      (told (.table nested)).errors.Perm
        (((findings (shape.decode (.table members))).filter Finding.isError).map
          (nestedDiagnostic sections)) ∧
      (told (.table nested)).warnings.Perm
        (((findings (shape.decode (.table members))).filter (!Finding.isError ·)).map
          (nestedDiagnostic sections))) := by
  refine ⟨⟨?_, ?_⟩, ⟨?_, ?_⟩, fun s t warnings warnings' ok ok' => ?_, fun ⟨s, ok⟩ => ?_⟩
  · rintro ⟨s, ok⟩
    exact ⟨_, (h.result_eq_ok ok).2⟩
  · rintro ⟨t, ok⟩
    obtain ⟨s, ok, _⟩ := h.result_eq_ok_iff.1 ok
    exact ⟨s, ok⟩
  · rintro ⟨⟨s, warnings⟩, ok⟩
    exact ⟨_, h.load_eq_ok_iff.2 ⟨s, warnings, ok, rfl, rfl⟩⟩
  · rintro ⟨⟨t, warnings'⟩, ok⟩
    obtain ⟨s, warnings, ok, _⟩ := h.load_eq_ok_iff.1 ok
    exact ⟨_, ok⟩
  · obtain ⟨s', _, found, rfl, _⟩ := h.load_eq_ok_iff.1 ok'
    obtain ⟨rfl, _⟩ := Prod.mk.inj (Except.ok.inj (found.symm.trans ok))
    obtain ⟨noTheme, _⟩ := h.result_eq_ok (load_eq_ok_iff_harmless.1 ok).1
    refine ⟨activeNavbar_nest noTheme, activeFooter_nest noTheme, activePrism_nest noTheme,
      navbarLinks_nest noTheme, footerSections_nest noTheme, summary_nest noTheme, rfl, rfl,
      fun fs root static => ⟨s'.checkReferences_eq root static fs, ?_⟩⟩
    rw [checkReferences_eq, missingFiles_nest noTheme h.movable, List.map_map]
    simp only [Function.comp_def, Finding.diagnostic_nest h.empty_not_mem]
  · have perm := h.findings_perm ok
    refine ⟨told_eq_ofFindings _, ?_, ?_⟩
    · rw [told_eq_ofFindings]
      exact Diagnostics.perm_nest h.empty_not_mem perm id
    · rw [told_eq_ofFindings]
      exact Diagnostics.perm_nest h.empty_not_mem perm not

/-- A manifest with two sections at the top level, one of which holds an unknown key. -/
def flatTable : Members := [("title", .string "T"), ("navbar", .list []),
  ("url", .string "https://example.com"), ("baseUrl", .string "/"),
  ("prism", .table [("theme", .string "plain"), ("dark", .null)])]

def flatSite : Site where
  title := "T"
  tagline := none
  url := "https://example.com"
  baseUrl := "/"
  favicon := none
  organizationName := none
  projectName := none
  navbar := some (.bare [])
  footer := none
  prism := some ⟨"plain", none⟩
  theme := none
  presets := none

/-- The same sections in a theme table. -/
def themeTable : Members :=
  [("prism", .table [("theme", .string "plain"), ("dark", .null)]), ("navbar", .list [])]

def nestedTable : Members := [("baseUrl", .string "/"), ("themeConfig", .table themeTable),
  ("title", .string "T"), ("url", .string "https://example.com")]

theorem flat_load_nested :
    Nests ["navbar", "prism"] flatTable nestedTable ∧
      (shape.decode (.table flatTable)).result = .ok flatSite ∧
      (told (.table nestedTable)).errors.Perm
        (((findings (shape.decode (.table flatTable))).filter Finding.isError).map
          (nestedDiagnostic ["navbar", "prism"])) := by
  have once : (Json.table flatTable).KeysOnce := by
    simp [flatTable, Json.KeysOnce, Json.KeysOnceItems, Json.KeysOnceMembers]
  have nests : Nests ["navbar", "prism"] flatTable nestedTable :=
    { movable := by decide
      keysOnce := once
      no_theme := by decide
      exists_perm := ⟨themeTable, by decide +kernel, by decide +kernel⟩ }
  have read : (shape.decode (.table flatTable)).result = .ok flatSite := by
    decide +kernel
  exact ⟨nests, read, ((load_nested _ _ _ nests).2.2.2 ⟨flatSite, read⟩).2.1⟩

end Site

end SiteManifest
