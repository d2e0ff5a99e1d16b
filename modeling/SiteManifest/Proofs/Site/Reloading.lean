import SiteManifest.Manifest.Text
import SiteManifest.Proofs.Json.RoundTrip
import SiteManifest.Proofs.Shape.Written
import SiteManifest.Proofs.Site.KeyOrder
import SiteManifest.Proofs.Site.Loading
import SiteManifest.Proofs.Site.Parts
import SiteManifest.Proofs.Toml.Faults
import SiteManifest.Proofs.Toml.RoundTrip

/-!
# Sites from their own texts

A site that was loaded is loaded again from its text in either format. JSON has a text for every
site and keeps the order of keys. TOML lacks a form for some options of presets, and writes tables
behind plain values; but a site is the same in any order of the keys of its schema, and its presets
stand on the right of a key, where no order changes.

## Main statements

* `Site.ofText_json`: a site is loaded from its text in JSON.
* `Site.fault?_toJson_iff`: the sites that have a text in TOML.
* `Site.ofText_toml`: a site is loaded from its text in TOML.
-/
namespace SiteManifest

namespace Site

variable {raw : Json.Raw} {s : Site} {warnings : Diagnostics} {format : Format} {text : String}

/-! ## What was loaded and written -/

theorem load_toJson_of_load {raw : Json} (ok : load raw = .ok (s, warnings)) :
    load s.toJson = .ok (s, warnings) := by
  obtain ⟨_, accepted⟩ := load_eq_ok_iff.1 ok
  exact load_eq_ok_iff.2 ⟨s.decode_toJson, accepted⟩

theorem keysOnce_toJson (ok : load raw.value = .ok (s, warnings)) : s.toJson.KeysOnce := by
  obtain ⟨decoded, _⟩ := load_eq_ok_iff.1 ok
  have result : (shape.decode raw.value).result = .ok s := by rw [decoded]
  have holds := (Shape.result_decode_eq_ok_iff_holds.1 result).2
  exact shape.keysOnce_write keysOnce_shape holds raw.once

theorem ofText_of_parse {raw : Json} (path : Path) (parsed : format.parse text = .ok raw)
    (ok : load raw = .ok (s, warnings)) : ofText path format text = .ok (s, warnings) := by
  unfold ofText
  rw [parsed]
  dsimp only
  rw [ok]
  rfl

/-! ## A site with options -/

/-- Options with a negative number, a list and a table in a table. -/
def options : Members := [("docs", .table [("sidebarPath", .string "s.js"),
  ("depth", .number (.integer ⟨-3, by decide, by decide⟩))]), ("themes", .list [.string "a\nb"])]

def optionsTable : Json.Raw where
  value := .table [("title", .string "T"), ("url", .string "https://example.com"),
    ("baseUrl", .string "/"), ("presets", .list [.list [.string "p", .table options]])]
  once := by simp [options, Json.KeysOnce, Json.KeysOnceItems, Json.KeysOnceMembers]

def optionsSite : Site where
  title := "T"
  tagline := none
  url := "https://example.com"
  baseUrl := "/"
  favicon := none
  organizationName := none
  projectName := none
  navbar := none
  footer := none
  prism := none
  theme := none
  presets := some [.configured "p" options]

theorem load_optionsTable : load optionsTable.value = .ok (optionsSite, .empty) := by
  decide +kernel

theorem toJson_optionsSite : optionsSite.toJson = optionsTable.value := rfl

theorem integral_optionsSite : optionsSite.toJson.Integral := by
  simp [toJson_optionsSite, optionsTable, options, Json.Integral, Json.IntegralItems,
    Json.IntegralMembers, Json.IsInteger]

theorem nesting_optionsSite : optionsSite.toJson.nesting = 5 := by
  simp [toJson_optionsSite, optionsTable, options, Json.nesting, Json.nestingItems,
    Json.nestingMembers]

/-! ## JSON -/

theorem ofText_pretty (path : Path) (ok : load raw.value = .ok (s, warnings))
    (integral : s.toJson.Integral) (nests : s.toJson.nesting ≤ Json.maxDepth) :
    ofText path .json (Json.pretty s.toJson) = .ok (s, warnings) := by
  have parsed := Json.parse_pretty integral (keysOnce_toJson ok) nests
  refine ofText_of_parse path ?_ (load_toJson_of_load ok)
  rw [Format.parse, parsed]
  rfl

/-- A site that was loaded has a text in JSON. The same site is loaded from it with the same
warnings, and has the same text again. -/
theorem ofText_json (path : Path) (ok : load raw.value = .ok (s, warnings))
    (integral : s.toJson.Integral) (nests : s.toJson.nesting ≤ 127) :
    ∃ text reloaded, s.render .json = .ok text ∧
      ofText path .json text = .ok (reloaded, warnings) ∧ reloaded = s ∧
        reloaded.render .json = .ok text :=
  ⟨_, s, rfl, ofText_pretty path ok integral nests, rfl, rfl⟩

theorem options_ofText_json :
    load optionsTable.value = .ok (optionsSite, .empty) ∧
      optionsSite.toJson.Integral ∧ optionsSite.toJson.nesting ≤ 127 ∧
        ∃ text reloaded, optionsSite.render .json = .ok text ∧
          ofText textPath .json text = .ok (reloaded, .empty) ∧ reloaded = optionsSite ∧
            reloaded.render .json = .ok text := by
  have nests : optionsSite.toJson.nesting ≤ 127 := by
    rw [nesting_optionsSite]
    decide
  exact ⟨load_optionsTable, integral_optionsSite, nests,
    ofText_json textPath load_optionsTable integral_optionsSite nests⟩

/-! ## TOML -/

theorem fault?_write_preset_iff {p : Preset} :
    Toml.fault? (Preset.shape.write p) = none ↔
      ∀ options, p.options? = some options → Toml.fault? (.table options) = none := by
  cases p with
  | plain name => simp [Preset.shape, Shape.write, Preset.options?, Toml.fault?]
  | configured name options =>
    simp [Preset.shape, Shape.write, Preset.options?, Toml.fault?, Toml.itemFault?]

/-- Whatever in a site has no form stands in its presets. -/
theorem fault?_toJson (s : Site) :
    Toml.fault? s.toJson =
      s.presets.bind fun ps => Toml.fault? (.list (ps.map Preset.shape.write)) := by
  have text (t : String) : Toml.fault? (Shape.text.write t) = none :=
    Shape.text.fault?_write trivial t
  have navbar (n : Navbar) := Navbar.shape.fault?_write plain_navbar n
  have footer (f : Footer) := Footer.shape.fault?_write plain_footer f
  have prism (p : Prism) := Prism.shape.fault?_write plain_prism p
  have theme (t : Theme) := Theme.shape.fault?_write plain_theme t
  rw [toJson, shape, Shape.write, Toml.fault?]
  simp only [fields, Fields.memberFault?_write_required_of, Fields.memberFault?_write_optional_of,
    text, navbar, footer, prism, theme, implies_true]
  cases s.presets with
  | none => rfl
  | some ps => simp [Fields.write, Shape.write, Toml.memberFault?]

/-- Only the options of presets can be without a form. -/
theorem fault?_toJson_iff (s : Site) :
    Toml.fault? s.toJson = none ↔
      ∀ p ∈ s.presetList, ∀ options, p.options? = some options →
        Toml.fault? (.table options) = none := by
  rw [fault?_toJson, presetList]
  cases s.presets with
  | none => simp
  | some ps => simp [Toml.fault?, Toml.itemFault?_eq_none_iff, fault?_write_preset_iff]

theorem keysOnce_presets : (Shape.list Preset.shape).KeysOnce := by
  simp [Preset.shape]

theorem hasHeader_presets (ps : List Preset) :
    Toml.hasHeader (.list (ps.map Preset.shape.write)) = false := by
  cases ps with
  | nil => rfl
  | cons p ps => cases p <;> rfl

/-- The presets of a site are what is found under their key. -/
theorem rel_presets {members : Members} (holds : shape.Holds (.table members) s) :
    Option.Rel (Shape.list Preset.shape).Holds (members.lookup "presets") s.presets := by
  rcases holds with ⟨_, ⟨⟩, hold⟩ | ⟨_, ⟨⟩, _⟩
  obtain ⟨_, _, _, _, _, _, _, _, _, _, _, presets, _⟩ := hold
  exact presets

/-- Presets are read as they were written if they are found as they were written. -/
theorem presets_eq_of_lookup {read : Members} {t : Site} (holds : shape.Holds (.table read) t)
    (alike : s.Alike t)
    (found : ∀ ps, s.presets = some ps →
      read.lookup "presets" = some (.list (ps.map Preset.shape.write))) :
    t.presets = s.presets := by
  have field := rel_presets holds
  have related := alike.presets
  cases hs : s.presets with
  | none =>
    cases ht : t.presets with
    | none => rfl
    | some qs =>
      rw [hs, ht] at related
      contradiction
  | some ps =>
    cases ht : t.presets with
    | none =>
      rw [hs, ht] at related
      contradiction
    | some qs =>
      rw [found ps hs, ht] at field
      have read := (Shape.read_eq_some_iff _ _ _).2 (Option.rel_some_some.1 field)
      have written := (Shape.list Preset.shape).read_write keysOnce_presets ps
      exact read.symm.trans written

/-- The same site is read in whatever order the keys around its presets are. -/
theorem load_of_reordered {members read : Members} (json : s.toJson = .table members)
    (ok : load s.toJson = .ok (s, warnings)) (reordered : s.toJson.Reordered (.table read))
    (plain : ∀ m ∈ Toml.plainMembers members, read.lookup m.1 = some m.2) :
    load (.table read) = .ok (s, warnings) := by
  obtain ⟨t, loaded, alike⟩ := exists_load_of_reordered reordered ok
  obtain ⟨decoded, _⟩ := load_eq_ok_iff.1 loaded
  have result : (shape.decode (.table read)).result = .ok t := by rw [decoded]
  have holds := (Shape.result_decode_eq_ok_iff_holds.1 result).2
  have presets : t.presets = s.presets := by
    refine presets_eq_of_lookup holds alike fun ps hs => ?_
    obtain ⟨_, _, _, _, _, part⟩ := s.part?_toJson_optional
    rw [json, hs] at part
    have plainValue := hasHeader_presets ps
    exact plain _ (List.mem_filter.2 ⟨mem_of_lookup part, by simp [plainValue]⟩)
  have same : t = s := by
    rw [alike.eq_with, presets]
  rw [loaded, same]

theorem exists_ofText_toml (path : Path) (ok : load raw.value = .ok (s, warnings))
    (nests : s.toJson.nesting ≤ 64) (fine : Toml.fault? s.toJson = none) :
    ∃ text, s.render .toml = .ok text ∧ ofText path .toml text = .ok (s, warnings) := by
  obtain ⟨members, json⟩ : ∃ members, s.toJson = .table members := ⟨_, rfl⟩
  have again := load_toJson_of_load ok
  have writable : Toml.Writable (Toml.maxDepth + 1) (.table members) :=
    json ▸ ⟨fine, keysOnce_toJson ok, Nat.le_trans nests (by decide)⟩
  obtain ⟨text, read, rendered, parsed, reordered, plain⟩ := Toml.exists_parse?_render writable
  refine ⟨text, ?_, ofText_of_parse path ?_ (load_of_reordered json again (json ▸ reordered) plain)⟩
  · rw [render, json, Format.render, rendered]
    rfl
  · rw [Format.parse, parsed]

theorem fault?_eq_none_of_render (rendered : s.render .toml = .ok text) :
    Toml.fault? s.toJson = none := by
  cases fault : Toml.fault? s.toJson with
  | none => rfl
  | some f =>
    simp [render, Format.render, Toml.render, fault, Except.mapError] at rendered

/-- Whichever text a site has, the same site is loaded from it. -/
theorem ofText_render (path : Path) (ok : load raw.value = .ok (s, warnings))
    (integral : s.toJson.Integral) (nests : s.toJson.nesting ≤ 64)
    (rendered : s.render format = .ok text) : ofText path format text = .ok (s, warnings) := by
  cases format with
  | json =>
    obtain rfl : Json.pretty s.toJson = text := Except.ok.inj rendered
    exact ofText_pretty path ok integral (Nat.le_trans nests (by decide))
  | toml =>
    obtain ⟨text', rendered', read⟩ := exists_ofText_toml path ok nests
      (fault?_eq_none_of_render rendered)
    obtain rfl := Except.ok.inj (rendered'.symm.trans rendered)
    exact read

theorem keysOnce_options (ok : load raw.value = .ok (s, warnings)) {p : Preset}
    (hp : p ∈ s.presetList) {options : Members} (ho : p.options? = some options) :
    (Json.table options).KeysOnce := by
  obtain ⟨members, json⟩ : ∃ members, s.toJson = .table members := ⟨_, rfl⟩
  have whole := keysOnce_toJson ok
  obtain ⟨_, _, _, _, _, part⟩ := s.part?_toJson_optional
  unfold presetList at hp
  cases hs : s.presets with
  | none => simp [hs] at hp
  | some ps =>
    rw [hs] at hp part
    rw [json] at part whole
    have listed := Json.keysOnceMembers_iff.1 whole.2 _ (mem_of_lookup part)
    have written := Json.keysOnceItems_iff.1 listed _ (List.mem_map_of_mem hp)
    cases p with
    | plain name => contradiction
    | configured name options' =>
      obtain rfl : options' = options := Option.some.inj ho
      exact written.2.1

/-- A site that was loaded has a text in TOML exactly if TOML has a form for everything in the
options of its presets. The same site is loaded from the text with the same warnings, and its texts
in both formats are the same again. -/
theorem ofText_toml (path : Path) (ok : load raw.value = .ok (s, warnings))
    (integral : s.toJson.Integral) (nests : s.toJson.nesting ≤ 64) :
    ((∃ text, s.render .toml = .ok text) ↔
      ∀ p ∈ s.presetList, ∀ options, p.options? = some options →
        Toml.HasForms (.table options)) ∧
    ∀ text, s.render .toml = .ok text → ∃ reloaded,
      ofText path .toml text = .ok (reloaded, warnings) ∧ reloaded = s ∧
        ∀ format, reloaded.render format = s.render format := by
  have forms : Toml.fault? s.toJson = none ↔
      ∀ p ∈ s.presetList, ∀ options, p.options? = some options →
        Toml.HasForms (.table options) := by
    rw [fault?_toJson_iff]
    refine forall₂_congr fun p hp => forall₂_congr fun options ho => ?_
    exact Toml.fault?_eq_none_iff (keysOnce_options ok hp ho)
  refine ⟨⟨?_, fun h => ?_⟩, fun text rendered => ?_⟩
  · rintro ⟨text, rendered⟩
    exact forms.1 (fault?_eq_none_of_render rendered)
  · obtain ⟨text, rendered, _⟩ := exists_ofText_toml path ok nests (forms.2 h)
    exact ⟨text, rendered⟩
  · exact ⟨s, ofText_render path ok integral nests rendered, rfl, fun _ => rfl⟩

theorem options_ofText_toml :
    load optionsTable.value = .ok (optionsSite, .empty) ∧
      optionsSite.toJson.Integral ∧ optionsSite.toJson.nesting ≤ 64 ∧
        ∃ text, optionsSite.render .toml = .ok text ∧
          ∃ reloaded, ofText textPath .toml text = .ok (reloaded, .empty) ∧ reloaded = optionsSite := by
  have nests : optionsSite.toJson.nesting ≤ 64 := by
    rw [nesting_optionsSite]
    decide
  obtain ⟨text, rendered⟩ : ∃ text, optionsSite.render .toml = .ok text := ⟨_, rfl⟩
  obtain ⟨reloaded, read, same, _⟩ := (ofText_toml textPath load_optionsTable
    integral_optionsSite nests).2 text rendered
  exact ⟨load_optionsTable, integral_optionsSite, nests, text, rendered, reloaded, read, same⟩

end Site

end SiteManifest
