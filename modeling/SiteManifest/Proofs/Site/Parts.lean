import SiteManifest.Proofs.Shape.Written
import SiteManifest.Proofs.Site.Checking
import SiteManifest.Proofs.Site.Loading

/-!
# Parts of what is written

Where the parts of a site stand in the value that is written of it, and which of two places a section
stands in once the checks have found no fault.

## Main definitions

* `Site.Shows`: a section is written in one place at most and shown from there.

## Main statements

* `Site.not_faultAt_of_load`: a site that was loaded has no faults.
* `Site.placed_eq_some_iff`: the place that a section is taken from is the one that it is written at.
-/
namespace SiteManifest

/-! ## Parts of a section -/

theorem Logo.part?_write (l : Logo) :
    (shape.write l).part? (.key "src") = some (.string l.src) ∧
      (shape.write l).part? (.key "srcDark") = l.srcDark.map .string := by
  simp [Shape.write, shape, fields, Json.part?, Fields.keys]

theorem Navbar.part?_write_table (t : NavbarTable) :
    (shape.write (.table t)).part? (.key "logo") = t.logo.map Logo.shape.write ∧
      (shape.write (.table t)).part? (.key "links") =
        t.links.map fun links => .list (links.map Link.shape.write) := by
  simp [Shape.write, shape, NavbarTable.fields, Json.part?, Fields.keys]

theorem Footer.part?_write_table (t : FooterTable) :
    (shape.write (.table t)).part? (.key "links") =
      t.links.map fun sections => .list (sections.map FooterSection.shape.write) := by
  simp [Shape.write, shape, FooterTable.fields, Json.part?, Fields.keys]

theorem Theme.part?_write (t : Theme) :
    (shape.write t).part? (.key "navbar") = t.navbar.map Navbar.shape.write ∧
      (shape.write t).part? (.key "footer") = t.footer.map Footer.shape.write ∧
      (shape.write t).part? (.key "prism") = t.prism.map Prism.shape.write := by
  simp [Shape.write, shape, fields, Json.part?, Fields.keys]

namespace Site

theorem part?_toJson_optional (s : Site) :
    s.toJson.part? (.key "favicon") = s.favicon.map .string ∧
      s.toJson.part? (.key "navbar") = s.navbar.map Navbar.shape.write ∧
      s.toJson.part? (.key "footer") = s.footer.map Footer.shape.write ∧
      s.toJson.part? (.key "prism") = s.prism.map Prism.shape.write ∧
      s.toJson.part? (.key "themeConfig") = s.theme.map Theme.shape.write ∧
      s.toJson.part? (.key "presets") =
        s.presets.map fun presets => .list (presets.map Preset.shape.write) := by
  simp [toJson, Shape.write, shape, fields, Json.part?, Fields.keys]

/-! ## Sites without faults -/

/-- The checks let a site pass only if there is no fault in it. -/
theorem not_faultAt_of_load {raw : Json} {s : Site} {warnings : Diagnostics}
    (h : load raw = .ok (s, warnings)) (steps : List Step) : ¬s.FaultAt steps := by
  intro fault
  obtain ⟨_, noErrors, _⟩ := load_eq_ok_iff.1 h
  obtain ⟨f, hf, error, _⟩ := hasErrorAt_check.2 fault
  have harmless := Diagnostics.errors_ofFindings_eq_nil_iff.1 noErrors f hf
  exact Bool.false_ne_true (harmless.symm.trans error)

/-! ## Either layout -/

variable {s : Site} {key : String} {outer : Option α} {inner : Theme → Option α}

/-- A section that is written at the top level is not in the theme table. -/
theorem inner_eq_none (once : ¬s.WrittenTwice outer inner) {a : α} (ho : outer = some a) :
    s.theme.bind inner = none := by
  refine Option.eq_none_iff_forall_ne_some.2 fun b hb => ?_
  obtain ⟨t, ht, hi⟩ := Option.bind_eq_some_iff.1 hb
  exact once ⟨by rw [ho]; rfl, t, ht, by rw [hi]; rfl⟩

theorem placed_eq_some_iff (once : ¬s.WrittenTwice outer inner) {x : Located α} :
    s.placed key outer inner = some x ↔ s.WrittenAt key outer inner x.steps x.what := by
  obtain ⟨place, a⟩ := x
  unfold placed
  constructor
  · intro h
    split at h
    next b =>
      obtain ⟨rfl, rfl⟩ : [.key key] = place ∧ b = a := by simpa using h
      exact .outer rfl
    next =>
      obtain ⟨b, hb, same⟩ := Option.map_eq_some_iff.1 h
      obtain ⟨t, ht, hi⟩ := Option.bind_eq_some_iff.1 hb
      obtain ⟨rfl, rfl⟩ : [.key "themeConfig", .key key] = place ∧ b = a := by simpa using same
      exact .inner ht hi
  · rintro (ho | ⟨ht, hi⟩)
    · rw [ho]
    · cases ho : outer with
      | none => rw [ht, Option.bind_some, hi, Option.map_some]
      | some b =>
        have absent := inner_eq_none once ho
        rw [ht, Option.bind_some, hi] at absent
        contradiction

/-- A section is written at the top level or in the theme table but not in both, and what is shown
is whatever is written. -/
structure Shows (s : Site) (outer : Option α) (inner : Theme → Option α) (shown : Option α) :
    Prop where
  once : ¬s.WrittenTwice outer inner
  eq_some_iff (a : α) : shown = some a ↔ outer = some a ∨ ∃ t, s.theme = some t ∧ inner t = some a

theorem writtenAt_iff (key : String) {a : α} :
    (∃ place, s.WrittenAt key outer inner place a) ↔
      outer = some a ∨ ∃ t, s.theme = some t ∧ inner t = some a := by
  constructor
  · rintro ⟨_, ho | ⟨ht, hi⟩⟩
    · exact .inl ho
    · exact .inr ⟨_, ht, hi⟩
  · rintro (ho | ⟨t, ht, hi⟩)
    · exact ⟨_, .outer ho⟩
    · exact ⟨_, .inner ht hi⟩

theorem shows_placed (key : String) (once : ¬s.WrittenTwice outer inner) :
    s.Shows outer inner ((s.placed key outer inner).map (·.what)) := by
  refine ⟨once, fun a => ?_⟩
  rw [← writtenAt_iff key, Option.map_eq_some_iff]
  constructor
  · rintro ⟨x, hx, rfl⟩
    exact ⟨x.steps, (placed_eq_some_iff once).1 hx⟩
  · rintro ⟨place, written⟩
    exact ⟨⟨place, a⟩, (placed_eq_some_iff once).2 written, rfl⟩

/-! ## Sections in what is written -/

theorem at?_outer {write : α → Json} (found : s.toJson.part? (.key key) = outer.map write) :
    s.toJson.at? [.key key] = outer.map write := by
  rw [Json.at?, found]
  cases outer <;> rfl

theorem at?_inner {write : α → Json}
    (found : ∀ t, (Theme.shape.write t).part? (.key key) = (inner t).map write) :
    s.toJson.at? [.key "themeConfig", .key key] = (s.theme.bind inner).map write := by
  obtain ⟨_, _, _, _, theme, _⟩ := s.part?_toJson_optional
  rw [Json.at?, theme]
  cases s.theme with
  | none => rfl
  | some t =>
    rw [Option.map_some, Option.bind_some, Option.bind_some, Json.at?, found]
    cases inner t <;> rfl

end Site

end SiteManifest
