import SiteManifest.Proofs.Shape.KeyOrder
import SiteManifest.Proofs.Site.Told

/-!
# Loading does not depend on the order of keys

A manifest with the keys of its tables in another order is loaded as the same site, up to the order
of keys in the options of presets. What the checks find comes in the order of the schema and is the
same, word by word; only what is unknown is told in the order of the manifest.

## Main definitions

* `Site.Alike`: two sites that differ at most in the order of keys in options.

## Main statements

* `Site.Alike.check_eq`: the checks find the same in both.
* `Site.load_reordered`: loading does not depend on the order of keys.
-/
namespace SiteManifest

open Json (Reordered)

/-! ## Presets that are alike -/

/-- The same preset but for the order of keys in its options. -/
structure Preset.Alike (p q : Preset) : Prop where
  name : p.name = q.name
  options : Option.Rel (fun o o' => (Json.table o).Reordered (.table o')) p.options? q.options?

theorem Json.Reordered.kind_eq {v w : Json} (h : v.Reordered w) : v.kind = w.kind := by
  obtain rfl | ⟨_, _, rfl, rfl, _⟩ | ⟨_, _, rfl, rfl⟩ := h.eq_or_exists <;> rfl

theorem Json.Reordered.asString?_eq {v w : Json} (h : v.Reordered w) :
    v.asString? = w.asString? := by
  obtain rfl | ⟨_, _, rfl, rfl, _⟩ | ⟨_, _, rfl, rfl⟩ := h.eq_or_exists <;> rfl

theorem elim_eq_of_rel {r : α → β → Prop} {o : Option α} {p : Option β} {c : γ} {f : α → γ}
    {g : β → γ} (h : Option.Rel r o p) (spec : ∀ a b, r a b → f a = g b) :
    o.elim c f = p.elim c g := by
  cases h with
  | none => rfl
  | some h => exact spec _ _ h

theorem Located.each_eq_of_forall₂ {r : α → β → Prop} {look : α → List (Located γ)}
    {look' : β → List (Located γ)} {first : Nat} {as : List α} {bs : List β}
    (h : List.Forall₂ r as bs) (spec : ∀ a b, r a b → look a = look' b) :
    Located.each look first as = Located.each look' first bs := by
  induction h generalizing first with
  | nil => rfl
  | cons here _ ih => rw [Located.each, Located.each, spec _ _ here, ih]

namespace Preset

theorem checkFile_eq {v w : Json} (h : v.Reordered w) : checkFile v = checkFile w := by
  rw [checkFile, checkFile, h.asString?_eq, h.kind_eq]

theorem checkFiles_eq {v w : Json} (h : v.Reordered w) : checkFiles v = checkFiles w := by
  obtain rfl | ⟨vs, ws, rfl, rfl, items⟩ | ⟨ms, ns, rfl, rfl⟩ := h.eq_or_exists
  · rfl
  · exact Located.each_eq_of_forall₂ items fun _ _ => checkFile_eq
  · exact checkFile_eq h

theorem checkDocs_eq {v w : Json} (h : v.Reordered w) : checkDocs v = checkDocs w := by
  obtain rfl | ⟨vs, ws, rfl, rfl, _⟩ | ⟨ms, ns, rfl, rfl⟩ := h.eq_or_exists
  · rfl
  · rfl
  · simp only [checkDocs, elim_eq_of_rel (h.lookup "sidebarPath") fun _ _ => checkFile_eq]

theorem checkTheme_eq {v w : Json} (h : v.Reordered w) : checkTheme v = checkTheme w := by
  obtain rfl | ⟨vs, ws, rfl, rfl, _⟩ | ⟨ms, ns, rfl, rfl⟩ := h.eq_or_exists
  · rfl
  · rfl
  · simp only [checkTheme, elim_eq_of_rel (h.lookup "customCss") fun _ _ => checkFiles_eq]

theorem checkOptions_eq {o o' : Members} (h : (Json.table o).Reordered (.table o')) :
    checkOptions o = checkOptions o' := by
  rw [checkOptions, checkOptions, elim_eq_of_rel (h.lookup "docs") fun _ _ => checkDocs_eq,
    elim_eq_of_rel (h.lookup "theme") fun _ _ => checkTheme_eq]

theorem Alike.check_eq {p q : Preset} (h : p.Alike q) : p.check = q.check := by
  rw [check, check, h.name, elim_eq_of_rel h.options fun _ _ => checkOptions_eq]

theorem alike_of_shape {p q : Preset} (h : shape.Alike p q) : p.Alike q := by
  match p, q, h with
  | .plain _, .plain _, .inl same => exact ⟨same, .none⟩
  | .configured _ _, .configured _ _, .inr ⟨same, options⟩ => exact ⟨same, .some options⟩

end Preset

namespace Site

/-! ## Sites that are alike -/

/-- The same site but for the order of keys in the options of its presets. -/
structure Alike (s t : Site) : Prop where
  eq_with : t = { s with presets := t.presets }
  presets : Option.Rel (List.Forall₂ Preset.Alike) s.presets t.presets

theorem plain_navbar : Navbar.shape.Plain := by
  simp [Navbar.shape, NavbarTable.fields, Logo.shape, Logo.fields, Link.shape, Link.fields,
    Shape.Plain, Fields.Plain]

theorem plain_footer : Footer.shape.Plain := by
  simp [Footer.shape, FooterTable.fields, FooterSection.shape, FooterSection.fields, Link.shape,
    Link.fields, Shape.Plain, Fields.Plain]

theorem plain_prism : Prism.shape.Plain := by
  simp [Prism.shape, Prism.fields, Shape.Plain, Fields.Plain]

theorem plain_theme : Theme.shape.Plain := by
  simp [Theme.shape, Theme.fields, plain_navbar, plain_footer, plain_prism, Shape.Plain,
    Fields.Plain]

theorem alike_of_shape {s t : Site} (h : shape.Alike s t) : s.Alike t := by
  obtain ⟨title, tagline, url, baseUrl, favicon, organization, project, navbar, footer, prism,
    theme, presets, _⟩ := h
  have text {o p : Option String} : Option.Rel Shape.text.Alike o p → o = p :=
    eq_of_rel fun _ _ => id
  have navbar := eq_of_rel (fun _ _ => Navbar.shape.eq_of_alike plain_navbar) navbar
  have footer := eq_of_rel (fun _ _ => Footer.shape.eq_of_alike plain_footer) footer
  have prism := eq_of_rel (fun _ _ => Prism.shape.eq_of_alike plain_prism) prism
  have theme := eq_of_rel (fun _ _ => Theme.shape.eq_of_alike plain_theme) theme
  refine ⟨?_, rel_imp (fun _ _ => List.Forall₂.imp fun _ _ => Preset.alike_of_shape) presets⟩
  cases s
  cases t
  simp only [mk.injEq, and_true]
  exact ⟨title.symm, (text tagline).symm, url.symm, baseUrl.symm, (text favicon).symm,
    (text organization).symm, (text project).symm, navbar.symm, footer.symm, prism.symm,
    theme.symm⟩

theorem Alike.presetList {s t : Site} (h : s.Alike t) :
    List.Forall₂ Preset.Alike s.presetList t.presetList := by
  have related := h.presets
  unfold Site.presetList
  cases hs : s.presets <;> cases ht : t.presets <;> rw [hs, ht] at related
  · exact .nil
  · contradiction
  · contradiction
  · exact Option.rel_some_some.1 related

/-- The checks find the same in sites that are alike. -/
theorem Alike.check_eq {s t : Site} (h : s.Alike t) : s.check = t.check := by
  have presets : Located.each Preset.check 0 s.presetList =
      Located.each Preset.check 0 t.presetList :=
    Located.each_eq_of_forall₂ h.presetList fun _ _ => Preset.Alike.check_eq
  have others := h.eq_with
  unfold check
  rw [presets]
  generalize Located.each Preset.check 0 t.presetList = found
  generalize t.presets = listed at others
  subst others
  rfl

theorem Alike.diagnostics_eq {s t : Site} (h : s.Alike t) : s.diagnostics = t.diagnostics := by
  rw [diagnostics, diagnostics, h.check_eq]

/-! ## Loading -/

variable {raw raw' : Json} {s t : Site}

/-- A manifest is read in any order of keys, and as sites that are alike. -/
theorem exists_alike_of_reordered (h : raw.Reordered raw')
    (ok : (shape.decode raw).result = .ok s) :
    ∃ t, (shape.decode raw').result = .ok t ∧ s.Alike t := by
  obtain ⟨accepts, holds⟩ := Shape.result_decode_eq_ok_iff_holds.1 ok
  obtain ⟨t, holds', alike⟩ := shape.exists_alike h holds
  have accepts' := shape.accepts_of_reordered h accepts
  exact ⟨t, Shape.result_decode_eq_ok_iff_holds.2 ⟨accepts', holds'⟩, alike_of_shape alike⟩

theorem exists_load_of_reordered (h : raw.Reordered raw') {warnings : Diagnostics}
    (ok : load raw = .ok (s, warnings)) : ∃ t, load raw' = .ok (t, warnings) ∧ s.Alike t := by
  obtain ⟨decoded, noErrors, rfl⟩ := load_eq_ok_iff.1 ok
  have ok : (shape.decode raw).result = .ok s := by rw [decoded]
  obtain ⟨t, ok', alike⟩ := exists_alike_of_reordered h ok
  have perm := Shape.unknown_perm keysOnce_shape h ok ok'
  have unknown : (shape.decode raw').unknown = [] := by
    rw [decoded] at perm
    exact List.nil_perm.1 perm
  refine ⟨t, load_eq_ok_iff.2 ⟨?_, ?_, ?_⟩, alike⟩
  · rw [← unknown, ← ok']
  · rw [← alike.diagnostics_eq, noErrors]
  · rw [alike.diagnostics_eq]

/-- Loading does not depend on the order of keys. A manifest is read in any order or in none, and it
is loaded in any order or in none, as the same site but for the order of keys in options. The checks
say the same word by word, and what is unknown is told in another order at most. -/
theorem load_reordered (raw raw' : Json) (h : raw.Reordered raw') :
    ((∃ s, (shape.decode raw).result = .ok s) ↔ ∃ t, (shape.decode raw').result = .ok t) ∧
    ((∃ loaded, load raw = .ok loaded) ↔ ∃ loaded, load raw' = .ok loaded) ∧
    (∀ s t warnings warnings', load raw = .ok (s, warnings) → load raw' = .ok (t, warnings') →
      s.Alike t ∧ warnings = warnings') ∧
    ∀ s t, (shape.decode raw).result = .ok s → (shape.decode raw').result = .ok t →
      s.Alike t ∧ s.diagnostics = t.diagnostics ∧
        ∃ unknown unknown' : List (List Step), unknown.Perm unknown' ∧
          told raw = ⟨unknown.map unknownError ++ s.diagnostics.errors,
            s.diagnostics.warnings⟩ ∧
          told raw' = ⟨unknown'.map unknownError ++ t.diagnostics.errors,
            t.diagnostics.warnings⟩ := by
  refine ⟨⟨?_, ?_⟩, ⟨?_, ?_⟩, fun s t warnings warnings' ok ok' => ?_, fun s t ok ok' => ?_⟩
  · rintro ⟨s, ok⟩
    obtain ⟨t, ok', _⟩ := exists_alike_of_reordered h ok
    exact ⟨t, ok'⟩
  · rintro ⟨t, ok⟩
    obtain ⟨s, ok', _⟩ := exists_alike_of_reordered h.symm ok
    exact ⟨s, ok'⟩
  · rintro ⟨⟨s, warnings⟩, ok⟩
    obtain ⟨t, ok', _⟩ := exists_load_of_reordered h ok
    exact ⟨_, ok'⟩
  · rintro ⟨⟨t, warnings⟩, ok⟩
    obtain ⟨s, ok', _⟩ := exists_load_of_reordered h.symm ok
    exact ⟨_, ok'⟩
  · obtain ⟨t', found, alike⟩ := exists_load_of_reordered h ok
    obtain ⟨rfl, rfl⟩ := Prod.mk.inj (Except.ok.inj (found.symm.trans ok'))
    exact ⟨alike, rfl⟩
  · obtain ⟨t', found, alike⟩ := exists_alike_of_reordered h ok
    obtain rfl := Except.ok.inj (found.symm.trans ok')
    exact ⟨alike, alike.diagnostics_eq, _, _, Shape.unknown_perm keysOnce_shape h ok ok',
      told_of_result_eq_ok ok, told_of_result_eq_ok ok'⟩

/-- The keys of a manifest in another order, those of a link and of the options as well. -/
def reorderedTable : Json := .table [("presets", .list [.list [.string "p",
    .table [("more", .null), ("docs", .bool false)]]]), ("title", .string "T"),
  ("baseUrl", .string "/"), ("navbar", .list [.table [("to", .string "docs/a"),
    ("position", .string "left"), ("label", .string "L")]]), ("url", .string "https://example.com")]

theorem sample_load_reordered :
    sampleTable.value.Reordered reorderedTable ∧
      ((∃ loaded, load sampleTable.value = .ok loaded) ↔
        ∃ loaded, load reorderedTable = .ok loaded) := by
  have link : (Json.table [("label", .string "L"), ("to", .string "docs/a"),
      ("position", .string "left")]).Same (.table [("to", .string "docs/a"),
        ("position", .string "left"), ("label", .string "L")]) :=
    ⟨_, _, rfl, by decide, Json.SameRow.refl _⟩
  have options : (Json.table [("docs", .bool false), ("more", .null)]).Same
      (.table [("more", .null), ("docs", .bool false)]) :=
    ⟨_, _, rfl, by decide, Json.SameRow.refl _⟩
  have preset : (Json.list [.string "p", .table [("docs", .bool false), ("more", .null)]]).Same
      (.list [.string "p", .table [("more", .null), ("docs", .bool false)]]) :=
    Json.same_list_iff.2 (.cons rfl (.cons options .nil))
  have same : sampleTable.value.Same reorderedTable := by
    refine (Json.same_table_iff sampleTable.once.1 (by decide)).2 ⟨rfl, ?_⟩
    simp [List.lookup_cons, Json.same_list_iff, link, preset, Json.Same.refl]
  have reordered : sampleTable.value.Reordered reorderedTable := ⟨sampleTable.once, same⟩
  exact ⟨reordered, (load_reordered _ reorderedTable reordered).2.1⟩

end Site

end SiteManifest
