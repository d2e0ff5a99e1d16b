import SiteManifest.Proofs.Shape.Visits
import SiteManifest.Proofs.Site.Parts

/-!
# Places of what the checks find

Every check puts what it finds at a place in what is written of the thing that it looks at. So a
manifest that has tables for its records has the places of all findings about its site.

## Main statements

* `Site.pointInto_check`: the findings about a site stand in what is written of it.
* `Site.pointInto_of_tables`: they stand in the manifest that it was read from.
-/
namespace SiteManifest

/-! ## Findings in what is written -/

/-- Every finding stands at a place in the value. -/
def PointInto (findings : List Finding) (v : Json) : Prop :=
  ∀ f ∈ findings, ∃ w, v.at? f.steps = some w

variable {findings : List Finding} {v w : Json} {step : Step}

@[simp] theorem pointInto_nil : PointInto [] v := nofun

@[simp] theorem pointInto_append {more : List Finding} :
    PointInto (findings ++ more) v ↔ PointInto findings v ∧ PointInto more v :=
  List.forall_mem_append

/-- What is found at the value itself stands in any value. -/
theorem pointInto_of_here (h : ∀ f ∈ findings, f.steps = []) : PointInto findings v :=
  fun f hf => ⟨v, by rw [h f hf, Json.at?_nil]⟩

theorem pointInto_below (hw : v.part? step = some w) (h : PointInto findings w) :
    PointInto (Located.below step findings) v := by
  intro f hf
  obtain ⟨g, hg, rfl⟩ := Located.mem_below_iff.1 hf
  obtain ⟨u, hu⟩ := h g hg
  exact ⟨u, Json.at?_cons_eq_some_iff.2 ⟨w, hw, hu⟩⟩

/-- Findings about something that may not be there. -/
theorem pointInto_below_elim {o : Option α} {look : α → List Finding} {write : α → Json}
    (found : v.part? step = o.map write) (h : ∀ a, PointInto (look a) (write a)) :
    PointInto (Located.below step (o.elim [] look)) v := by
  cases o with
  | none => exact pointInto_nil
  | some a => exact pointInto_below found (h a)

theorem pointInto_each {look : α → List Finding} {write : α → Json} {as : List α}
    (h : ∀ a, PointInto (look a) (write a)) :
    PointInto (Located.each look 0 as) (.list (as.map write)) := by
  intro f hf
  obtain ⟨i, a, g, ha, hg, rfl⟩ := Located.mem_each_iff.1 hf
  obtain ⟨u, hu⟩ := h a g hg
  refine ⟨u, Json.at?_cons_eq_some_iff.2 ⟨write a, ?_, hu⟩⟩
  rw [Json.part?, Nat.zero_add, List.getElem?_map, ha, Option.map_some]

@[simp] theorem pointInto_requireText {subject : Subject} {s : String} :
    PointInto (requireText subject s) v := by
  refine pointInto_of_here fun f hf => ?_
  unfold requireText at hf
  split at hf
  · rw [List.mem_singleton.1 hf, Located.here]
  · contradiction

/-! ## Checks of the parts -/

theorem Link.pointInto_checkPage {path : String} : PointInto (checkPage path) v := by
  refine pointInto_of_here fun f hf => ?_
  unfold checkPage at hf
  split at hf <;> simp_all [Located.here]

theorem Link.pointInto_checkUrl {url : String} : PointInto (checkUrl url) v := by
  refine pointInto_of_here fun f hf => ?_
  unfold checkUrl at hf
  split at hf
  · simp_all [Located.here]
  · split at hf <;> simp_all [Located.here]

theorem Link.pointInto_check (l : Link) : PointInto l.check (Link.shape.write l) := by
  have label : (Link.shape.write l).part? (.key "label") = some (.string l.label) := by
    simp [Shape.write, Link.shape, Link.fields, Json.part?]
  have page : (Link.shape.write l).part? (.key "to") = l.page.map .string := by
    simp [Shape.write, Link.shape, Link.fields, Json.part?, Fields.keys]
  have href : (Link.shape.write l).part? (.key "href") = l.href.map .string := by
    simp [Shape.write, Link.shape, Link.fields, Json.part?, Fields.keys]
  refine pointInto_append.2 ⟨pointInto_below label pointInto_requireText, ?_⟩
  unfold checkTarget
  split
  next => exact pointInto_of_here (by simp [Located.here])
  next => exact pointInto_of_here (by simp [Located.here])
  next path hp _ =>
    rw [hp] at page
    exact pointInto_below page pointInto_checkPage
  next url _ hu =>
    rw [hu] at href
    exact pointInto_below href pointInto_checkUrl

theorem Link.pointInto_checkAll (links : List Link) :
    PointInto (checkAll links) (.list (links.map Link.shape.write)) :=
  pointInto_each pointInto_check

theorem Logo.pointInto_check (l : Logo) : PointInto l.check (Logo.shape.write l) := by
  obtain ⟨src, srcDark⟩ := l.part?_write
  intro f hf
  obtain ⟨image, himage, hf⟩ := List.mem_flatMap.1 hf
  obtain rfl : f = ⟨image.steps, .blank .logoImage⟩ := by
    split at hf
    · exact List.mem_singleton.1 hf
    · contradiction
  rcases mem_images.1 himage with rfl | ⟨dark, hd, rfl⟩
  · exact ⟨_, Json.at?_cons_eq_some_iff.2 ⟨_, src, rfl⟩⟩
  · rw [hd] at srcDark
    exact ⟨_, Json.at?_cons_eq_some_iff.2 ⟨_, srcDark, rfl⟩⟩

theorem Navbar.pointInto_check (n : Navbar) : PointInto n.check (Navbar.shape.write n) := by
  cases n with
  | bare links => exact Link.pointInto_checkAll links
  | table t =>
    obtain ⟨logo, links⟩ := part?_write_table t
    exact pointInto_append.2 ⟨pointInto_below_elim logo Logo.pointInto_check,
      pointInto_below_elim links Link.pointInto_checkAll⟩

theorem FooterSection.pointInto_check (c : FooterSection) :
    PointInto c.check (FooterSection.shape.write c) := by
  have title : (FooterSection.shape.write c).part? (.key "title") = some (.string c.title) := by
    simp [Shape.write, FooterSection.shape, FooterSection.fields, Json.part?]
  have items : (FooterSection.shape.write c).part? (.key "items") =
      some (.list (c.items.map Link.shape.write)) := by
    simp [Shape.write, FooterSection.shape, FooterSection.fields, Json.part?]
  have empty (w : Json) :
      PointInto (if c.items.isEmpty then [.here .emptySection] else []) w := by
    refine pointInto_of_here fun f hf => ?_
    split at hf <;> simp_all [Located.here]
  exact pointInto_append.2 ⟨pointInto_below title pointInto_requireText,
    pointInto_below items (pointInto_append.2 ⟨empty _, Link.pointInto_checkAll c.items⟩)⟩

theorem Footer.pointInto_check (x : Footer) : PointInto x.check (Footer.shape.write x) := by
  cases x with
  | bare sections => exact pointInto_each FooterSection.pointInto_check
  | table t =>
    exact pointInto_below_elim (part?_write_table t) fun _ =>
      pointInto_each FooterSection.pointInto_check

theorem Prism.pointInto_checkName {name : String} : PointInto (checkName name) v := by
  refine pointInto_of_here fun f hf => ?_
  unfold checkName at hf
  split at hf
  · simp_all [Located.here]
  · split at hf <;> simp_all [Located.here]

theorem Prism.pointInto_check (p : Prism) : PointInto p.check (Prism.shape.write p) := by
  have theme : (Prism.shape.write p).part? (.key "theme") = some (.string p.theme) := by
    simp [Shape.write, Prism.shape, Prism.fields, Json.part?]
  have darkTheme : (Prism.shape.write p).part? (.key "darkTheme") = p.darkTheme.map .string := by
    simp [Shape.write, Prism.shape, Prism.fields, Json.part?, Fields.keys]
  exact pointInto_append.2 ⟨pointInto_below theme pointInto_checkName,
    pointInto_below_elim darkTheme fun _ => pointInto_checkName⟩

theorem Preset.pointInto_checkFile (v : Json) : PointInto (checkFile v) v := by
  unfold checkFile
  split
  · exact pointInto_requireText
  · exact pointInto_of_here (by simp [Located.here])

theorem Preset.pointInto_checkFiles (v : Json) : PointInto (checkFiles v) v := by
  unfold checkFiles
  split
  next vs =>
    have each : PointInto (Located.each checkFile 0 vs) (.list (vs.map id)) :=
      pointInto_each pointInto_checkFile
    rwa [List.map_id] at each
  next => exact pointInto_checkFile v

/-- Options are written as they are, so what is found behind a key stands there. -/
theorem Preset.pointInto_option {options : Members} {key : String} {look : Json → List Finding}
    (h : ∀ w, PointInto (look w) w) :
    PointInto (Located.below (.key key) ((options.lookup key).elim [] look)) (.table options) :=
  pointInto_below_elim Option.map_id'.symm h

theorem Preset.pointInto_checkDocs (v : Json) : PointInto (checkDocs v) v := by
  unfold checkDocs
  split
  · exact pointInto_option pointInto_checkFile
  · exact pointInto_nil
  · exact pointInto_of_here (by simp [Located.here])

theorem Preset.pointInto_checkTheme (v : Json) : PointInto (checkTheme v) v := by
  unfold checkTheme
  split
  · exact pointInto_option pointInto_checkFiles
  · exact pointInto_of_here (by simp [Located.here])

theorem Preset.pointInto_check (p : Preset) : PointInto p.check (Preset.shape.write p) := by
  refine pointInto_append.2 ⟨pointInto_requireText, ?_⟩
  cases p with
  | plain name => exact pointInto_nil
  | configured name options =>
    have pair : (Preset.shape.write (.configured name options)).part? (.index 1) =
        some (.table options) := rfl
    exact pointInto_below pair (pointInto_append.2
      ⟨pointInto_option pointInto_checkDocs, pointInto_option pointInto_checkTheme⟩)

namespace Site

/-! ## Checks of the whole -/

theorem pointInto_checkUrl {url : String} : PointInto (checkUrl url) v := by
  refine pointInto_of_here fun f hf => ?_
  unfold checkUrl at hf
  split at hf
  next parsed _ =>
    simp only [checkOrigin, List.mem_append] at hf
    rcases hf with (hf | hf) | hf <;> split at hf <;> simp_all [Located.here]
  next => simp_all [Located.here]

theorem pointInto_checkBaseUrl {baseUrl : String} : PointInto (checkBaseUrl baseUrl) v := by
  refine pointInto_of_here fun f hf => ?_
  unfold checkBaseUrl at hf
  split at hf
  · simp_all [Located.here]
  · split at hf
    · simp_all [Located.here]
    · split at hf <;> simp_all [Located.here]

theorem pointInto_checkMetadata (s : Site) : PointInto s.checkMetadata s.toJson := by
  have title : s.toJson.part? (.key "title") = some (.string s.title) := by
    simp [toJson, Shape.write, shape, fields, Json.part?]
  have url : s.toJson.part? (.key "url") = some (.string s.url) := by
    simp [toJson, Shape.write, shape, fields, Json.part?]
  have baseUrl : s.toJson.part? (.key "baseUrl") = some (.string s.baseUrl) := by
    simp [toJson, Shape.write, shape, fields, Json.part?]
  have favicon := s.part?_toJson_optional.1
  simp only [checkMetadata, pointInto_append]
  exact ⟨⟨⟨pointInto_below title pointInto_requireText, pointInto_below url pointInto_checkUrl⟩,
    pointInto_below baseUrl pointInto_checkBaseUrl⟩,
    pointInto_below_elim favicon fun _ => pointInto_requireText⟩

theorem pointInto_checkOnce {key : String} {outer inner : Option α} {write : α → Json}
    (found : v.part? (.key key) = inner.map write) : PointInto (checkOnce key outer inner) v := by
  intro f hf
  unfold checkOnce at hf
  split at hf
  next both =>
    obtain ⟨a, rfl⟩ : ∃ a, inner = some a := by
      rw [← Option.isSome_iff_exists]
      exact (Bool.and_eq_true_iff.1 both).2
    rw [List.mem_singleton.1 hf]
    exact ⟨write a, Json.at?_cons_eq_some_iff.2 ⟨_, found, rfl⟩⟩
  next => contradiction

theorem pointInto_checkTheme (s : Site) (t : Theme) :
    PointInto (s.checkTheme t) (Theme.shape.write t) := by
  obtain ⟨navbar, footer, prism⟩ := t.part?_write
  simp only [checkTheme, Theme.check, pointInto_append]
  exact ⟨⟨⟨⟨⟨pointInto_below_elim prism Prism.pointInto_check,
    pointInto_below_elim navbar Navbar.pointInto_check⟩,
    pointInto_below_elim footer Footer.pointInto_check⟩,
    pointInto_checkOnce navbar⟩, pointInto_checkOnce footer⟩, pointInto_checkOnce prism⟩

theorem pointInto_checkPresets (s : Site) :
    PointInto (Located.below (.key "presets") (Located.each Preset.check 0 s.presetList))
      s.toJson := by
  obtain ⟨_, _, _, _, _, found⟩ := s.part?_toJson_optional
  unfold presetList
  cases h : s.presets with
  | none => exact pointInto_nil
  | some presets =>
    rw [h] at found
    exact pointInto_below found (pointInto_each Preset.pointInto_check)

/-- Whatever the checks find in a site has its place in what is written of it. -/
theorem pointInto_check (s : Site) : PointInto s.check s.toJson := by
  obtain ⟨_, navbar, footer, prism, theme, _⟩ := s.part?_toJson_optional
  simp only [check, pointInto_append]
  exact ⟨⟨⟨⟨⟨s.pointInto_checkMetadata, pointInto_below_elim navbar Navbar.pointInto_check⟩,
    pointInto_below_elim footer Footer.pointInto_check⟩,
    pointInto_below_elim prism Prism.pointInto_check⟩,
    pointInto_below_elim theme s.pointInto_checkTheme⟩, s.pointInto_checkPresets⟩

/-- Whatever the checks find has its place in the manifest, if that has tables for its records. -/
theorem pointInto_of_tables {raw : Json} {site : Site}
    (h : (shape.decode raw).result = .ok site)
    (tables : shape.Spelled Json.IsTable (fun _ => True) raw) : PointInto site.check raw := by
  obtain ⟨_, holds⟩ := Shape.result_decode_eq_ok_iff_holds.1 h
  intro f hf
  obtain ⟨w, hw⟩ := site.pointInto_check f hf
  exact shape.placesIn_of_holds holds tables f.steps w hw

end Site

end SiteManifest
