import SiteManifest.Manifest.Format
import SiteManifest.Proofs.Json.Parsing
import SiteManifest.Proofs.Shape.Spelling
import SiteManifest.Proofs.Site.Findings
import SiteManifest.Proofs.Toml.Keys
import SiteManifest.Site.Load

/-!
# Loading and writing

A value loads exactly if it decodes without an unknown key to a site that the checks do not refuse.
So loading gives back every site that was written, with the same complaints about it, and what is
written of a site that was loaded is the value that it was loaded from, unless that value is spelled
in one of the ways that are never written.

## Main statements

* `Format.exists_raw_of_parse`: a value that is read from text has every key once.
* `Site.load_eq_ok_iff`: the values that load.
* `Site.load_toJson`: a site that was written is loaded again.
* `Site.same_toJson_iff_canonical`: a value that was loaded is written again.
* `Site.result_decode_eq_ok_iff_accepts`: the values that decode.
-/
namespace SiteManifest

/-- Whichever format a manifest is written in, the value it is read as has every key once. -/
theorem Format.exists_raw_of_parse {format : Format} {text : String} {v : Json}
    (h : format.parse text = .ok v) : ∃ raw : Json.Raw, raw.value = v := by
  suffices once : v.KeysOnce from ⟨⟨v, once⟩, rfl⟩
  cases format with
  | json =>
    unfold parse at h
    cases parsed : Json.parse text with
    | error failure => simp [parsed, Except.mapError] at h
    | ok v =>
      rw [parsed] at h
      exact Except.ok.inj h ▸ Json.keysOnce_parse parsed
  | toml =>
    simp only [parse] at h
    split at h
    next v parsed => exact Except.ok.inj h ▸ Toml.keysOnce_parse? parsed
    next => contradiction

theorem except_map_eq_ok_iff {f : α → β} {x : Except ε α} {b : β} :
    x.map f = .ok b ↔ ∃ a, x = .ok a ∧ f a = b := by
  cases x <;> simp [Except.map]

theorem except_mapError_eq_ok_iff {f : ε → δ} {x : Except ε α} {a : α} :
    x.mapError f = .ok a ↔ x = .ok a := by
  cases x <;> simp [Except.mapError]

namespace Site

theorem isError_unknownKey (steps : List Step) : (unknownKey steps).isError = true := rfl

/-! ## Keys of the schema -/

theorem keysOnce_linkShape : Link.shape.KeysOnce := by
  simp [Link.shape, Link.fields, Fields.keys]

theorem keysOnce_navbarShape : Navbar.shape.KeysOnce := by
  simp [Navbar.shape, NavbarTable.fields, Logo.shape, Logo.fields, keysOnce_linkShape,
    Fields.keys]

theorem keysOnce_footerShape : Footer.shape.KeysOnce := by
  simp [Footer.shape, FooterTable.fields, FooterSection.shape, FooterSection.fields,
    keysOnce_linkShape, Fields.keys]

theorem keysOnce_prismShape : Prism.shape.KeysOnce := by
  simp [Prism.shape, Prism.fields, Fields.keys]

theorem keysOnce_themeShape : Theme.shape.KeysOnce := by
  simp [Theme.shape, Theme.fields, keysOnce_navbarShape, keysOnce_footerShape,
    keysOnce_prismShape, Fields.keys]

/-- No record of the schema has two fields of one key. -/
theorem keysOnce_shape : shape.KeysOnce := by
  simp [shape, fields, Preset.shape, keysOnce_navbarShape, keysOnce_footerShape,
    keysOnce_prismShape, keysOnce_themeShape, Fields.keys]

/-! ## Values that load -/

theorem findings_ok (site : Site) : findings ⟨[], .ok site⟩ = site.check :=
  List.nil_append site.check

theorem findings_of_result_eq_ok {raw : Json} {site : Site}
    (ok : (shape.decode raw).result = .ok site) :
    findings (shape.decode raw) = (shape.decode raw).unknown.map unknownKey ++ site.check := by
  rw [findings, ok]

/-- A value without unknown keys is judged by the checks of its site alone. -/
theorem load_of_decode {raw : Json} {site : Site} (h : shape.decode raw = ⟨[], .ok site⟩) :
    load raw = site.diagnostics.toExcept.map fun warnings => (site, warnings) := by
  simp only [load, h, findings_ok, diagnostics]

/-- An unknown key is an error, so where no finding is one, there is no such key. -/
theorem unknown_eq_nil {reading : Reading Site}
    (harmless : ∀ f ∈ findings reading, f.isError = false) : reading.unknown = [] := by
  refine List.eq_nil_iff_forall_not_mem.2 fun steps hs => ?_
  have := harmless (unknownKey steps) (List.mem_append_left _ (List.mem_map_of_mem hs))
  simp [isError_unknownKey] at this

theorem load_eq_ok_iff {raw : Json} {site : Site} {warnings : Diagnostics} :
    load raw = .ok (site, warnings) ↔
      shape.decode raw = ⟨[], .ok site⟩ ∧ site.diagnostics.errors = [] ∧
        site.diagnostics = warnings := by
  constructor
  · intro h
    unfold load at h
    rcases reading : shape.decode raw with ⟨unknown, m | found⟩
    · simp [reading] at h
    · rw [reading] at h
      obtain ⟨accepted, ok, same⟩ := except_map_eq_ok_iff.1 h
      obtain ⟨rfl, rfl⟩ := Prod.mk.inj same
      obtain ⟨noErrors, rfl⟩ := Diagnostics.toExcept_eq_ok_iff.1 ok
      have harmless := Diagnostics.errors_ofFindings_eq_nil_iff.1 noErrors
      obtain rfl : unknown = [] := unknown_eq_nil harmless
      rw [findings_ok] at noErrors
      rw [findings_ok, diagnostics]
      exact ⟨rfl, noErrors, rfl⟩
  · rintro ⟨decoded, accepted⟩
    have ok := Diagnostics.toExcept_eq_ok_iff.2 accepted
    rw [load_of_decode decoded, ok, Except.map]

/-- A value loads exactly if it is read and nothing that is found of it is an error. -/
theorem load_eq_ok_iff_harmless {raw : Json} {site : Site} {warnings : Diagnostics} :
    load raw = .ok (site, warnings) ↔
      (shape.decode raw).result = .ok site ∧
        (∀ f ∈ findings (shape.decode raw), f.isError = false) ∧ site.diagnostics = warnings := by
  rw [load_eq_ok_iff]
  constructor
  · rintro ⟨decoded, noErrors, same⟩
    rw [decoded, findings_ok]
    exact ⟨rfl, Diagnostics.errors_ofFindings_eq_nil_iff.1 noErrors, same⟩
  · rintro ⟨ok, harmless, same⟩
    have decoded : shape.decode raw = ⟨[], .ok site⟩ := by
      rw [← unknown_eq_nil harmless, ← ok]
    rw [decoded, findings_ok] at harmless
    exact ⟨decoded, Diagnostics.errors_ofFindings_eq_nil_iff.2 harmless, same⟩

/-- If one value is read wherever another is, as a site that is determined by the other one, and
nothing more is wrong with it, then it is loaded wherever the other one is. -/
theorem load_eq_ok_iff_of_result {raw raw' : Json} {change : Site → Site}
    (result : ∀ t, (shape.decode raw').result = .ok t ↔
      ∃ s, (shape.decode raw).result = .ok s ∧ change s = t)
    (harmless : ∀ s, (shape.decode raw).result = .ok s →
      ((∀ f ∈ findings (shape.decode raw'), f.isError = false) ↔
        ∀ f ∈ findings (shape.decode raw), f.isError = false))
    {t : Site} {warnings' : Diagnostics} :
    load raw' = .ok (t, warnings') ↔
      ∃ s warnings, load raw = .ok (s, warnings) ∧ change s = t ∧ t.diagnostics = warnings' := by
  simp only [load_eq_ok_iff_harmless, result]
  constructor
  · rintro ⟨⟨s, ok, changed⟩, sound, told⟩
    exact ⟨s, _, ⟨ok, (harmless s ok).1 sound, rfl⟩, changed, told⟩
  · rintro ⟨s, _, ⟨ok, sound, _⟩, changed, told⟩
    exact ⟨⟨s, ok, changed⟩, (harmless s ok).2 sound, told⟩

/-! ## What was written is loaded again -/

theorem decode_toJson (s : Site) : shape.decode s.toJson = ⟨[], .ok s⟩ :=
  shape.decode_write keysOnce_shape s

/-- Whatever a site holds, it is read back from what is written of it, and the checks say of it what
they said before. -/
theorem load_toJson (s : Site) :
    shape.decode s.toJson = ⟨[], .ok s⟩ ∧
      load s.toJson =
        if s.diagnostics.hasErrors then .error s.diagnostics else .ok (s, s.diagnostics) := by
  have decoded := s.decode_toJson
  refine ⟨decoded, ?_⟩
  rw [load_of_decode decoded, Diagnostics.toExcept]
  cases s.diagnostics.hasErrors <;> rfl

/-! ## What was loaded is written again -/

/-- Loading loses nothing: what is written of a loaded site is the value it was loaded from, up to
the order of keys, exactly if that value spells all records as tables and all choices as words. -/
theorem same_toJson_iff_canonical {raw : Json.Raw} {site : Site} {warnings : Diagnostics}
    (h : load raw.value = .ok (site, warnings)) :
    site.toJson.Same raw.value ↔ shape.Canonical raw.value := by
  obtain ⟨decoded, _, _⟩ := load_eq_ok_iff.1 h
  obtain ⟨visit, read⟩ := Shape.decode_eq_iff.1 decoded
  have holds := (shape.read_eq_some_iff raw.value site).1 read
  exact shape.same_write_iff keysOnce_shape raw.once visit holds

/-- A manifest in the spelling of what is written, and with keys in another order. -/
def sampleTable : Json.Raw where
  value := .table [("baseUrl", .string "/"), ("title", .string "T"),
    ("url", .string "https://example.com"),
    ("navbar", .list [.table [("label", .string "L"), ("to", .string "docs/a"),
      ("position", .string "left")]]),
    ("presets", .list [.list [.string "p", .table [("docs", .bool false), ("more", .null)]]])]
  once := by simp [Json.KeysOnce, Json.KeysOnceItems, Json.KeysOnceMembers]

def sampleSite : Site where
  title := "T"
  tagline := none
  url := "https://example.com"
  baseUrl := "/"
  favicon := none
  organizationName := none
  projectName := none
  navbar := some (.bare [⟨some "docs/a", none, "L", some .left⟩])
  footer := none
  prism := none
  theme := none
  presets := some [.configured "p" [("docs", .bool false), ("more", .null)]]

theorem sample_same_toJson_iff_canonical :
    load sampleTable.value = .ok (sampleSite, .empty) ∧
      (sampleSite.toJson.Same sampleTable.value ↔ shape.Canonical sampleTable.value) := by
  have loaded : load sampleTable.value = .ok (sampleSite, .empty) := by
    decide +kernel
  exact ⟨loaded, same_toJson_iff_canonical loaded⟩

/-! ## The grammar of a site -/

/-- A value decodes exactly if the grammar takes it, and then to the site that it stands for. No
shape takes the null value. -/
theorem result_decode_eq_ok_iff_accepts (raw : Json) :
    ((∃ site, (shape.decode raw).result = .ok site) ↔ shape.Accepts raw) ∧
      (∀ site, (shape.decode raw).result = .ok site ↔ shape.Accepts raw ∧ shape.Holds raw site) ∧
      ∀ (α : Type) (s : Shape α), ¬s.Accepts .null :=
  ⟨Shape.exists_result_decode_eq_ok_iff, fun _ => Shape.result_decode_eq_ok_iff_holds,
    fun _ s => s.not_accepts_null⟩

end Site

end SiteManifest
