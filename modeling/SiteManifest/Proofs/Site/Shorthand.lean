import SiteManifest.Proofs.Shape.Replacing
import SiteManifest.Proofs.Site.Layouts

/-!
# Bare sections and section tables

A navbar or a footer that is a bare list says the same as a table with that list under its links.
Reading either form meets the same in the same order, only that the steps into a row of the list go
through the key of the links.

## Main definitions

* `sectionPlaces`: the places of a manifest where a navbar or a footer can stand.
* `Site.expand`: a site with the section at a place in the form of a table.

## Main statements

* `Site.visit_replaceAt`: what a visit meets after a bare section was replaced by a table.
* `Site.result_replaceAt_eq_ok`: what is read of it.
* `Site.check_expand`: what the checks find in it.
* `Site.load_expanded`: either form is loaded as the other one.
-/
namespace SiteManifest

/-- Where a navbar or a footer stands, in either layout. -/
def sectionPlaces : List (List Step) :=
  [[.key "navbar"], [.key "footer"], [.key "themeConfig", .key "navbar"],
    [.key "themeConfig", .key "footer"]]

variable {rows : List Json} {place : List Step}

theorem mem_sectionPlaces_iff : place ∈ sectionPlaces ↔
    ∃ key ∈ ["navbar", "footer"], place = [.key key] ∨ place = [.key "themeConfig", .key key] := by
  simp only [sectionPlaces, List.mem_cons, List.not_mem_nil, or_false, exists_eq_or_imp,
    exists_eq_left]
  tauto

/-- The section that is meant is not further in under the key of a section. -/
theorem top_of_sectionPlace (h : place ∈ sectionPlaces) (key : String)
    (other : key ≠ "themeConfig") (rest : List Step) (head : place = .key key :: rest) :
    key ∈ ["navbar", "footer"] ∧ rest = [] := by
  obtain ⟨name, hn, rfl | rfl⟩ := mem_sectionPlaces_iff.1 h
  · obtain ⟨⟨⟩, rfl⟩ := List.cons.inj head
    exact ⟨hn, rfl⟩
  · obtain ⟨⟨⟩, rfl⟩ := List.cons.inj head
    exact absurd rfl other

/-! ## Sections -/

namespace Navbar

/-- The navbar as a table. -/
def expand : Navbar → Navbar
  | bare links => table ⟨none, none, none, some links⟩
  | table t => table t

theorem links_expand (n : Navbar) : n.expand.links = n.links := by
  cases n <;> rfl

theorem images_expand (n : Navbar) : n.expand.images = n.images := by
  cases n <;> rfl

theorem check_expand (n : Navbar) : n.expand.check = n.check.map (Located.expand []) := by
  cases n with
  | bare links => exact (Located.map_expand_each Link.check 0 links).symm
  | table t =>
    show t.check = t.check.map (Located.expand [])
    rw [NavbarTable.check, List.map_append, Located.map_expand_below_of_ne (by simp),
      Located.map_expand_below_of_ne (by simp)]

theorem visit_links (rows : List Json) :
    shape.visit (.table [("links", .list rows)]) =
      (shape.visit (.list rows)).map (Located.expand []) :=
  Shape.visit_linksTable (by decide) (by simp [NavbarTable.fields, Fields.visitKey, Shape.visit,
    visitItems]) rfl

theorem holds_links {n : Navbar} (h : shape.Holds (.list rows) n) :
    shape.Holds (.table [("links", .list rows)]) n.expand := by
  obtain ⟨_, links, ⟨⟩, held, bare⟩ | ⟨_, _, ⟨⟩, _⟩ := h
  cases n with
  | table t => contradiction
  | bare _ =>
    obtain rfl := Sum.inl.inj bare
    refine .inr ⟨_, (none, none, none, some _, ()), rfl, ?_, rfl⟩
    exact ⟨.none, .none, .none, .some ⟨rows, rfl, held⟩, trivial⟩

end Navbar

namespace Footer

/-- The footer as a table. -/
def expand : Footer → Footer
  | bare sections => table ⟨none, some sections⟩
  | table t => table t

theorem sections_expand (f : Footer) : f.expand.sections = f.sections := by
  cases f <;> rfl

theorem style_expand (f : Footer) : f.expand.style = f.style := by
  cases f <;> rfl

theorem check_expand (f : Footer) : f.expand.check = f.check.map (Located.expand []) := by
  cases f with
  | bare sections => exact (Located.map_expand_each FooterSection.check 0 sections).symm
  | table t => exact (Located.map_expand_below_of_ne (by simp) _).symm

theorem visit_links (rows : List Json) :
    shape.visit (.table [("links", .list rows)]) =
      (shape.visit (.list rows)).map (Located.expand []) :=
  Shape.visit_linksTable (by decide) (by simp [FooterTable.fields, Fields.visitKey, Shape.visit,
    visitItems]) rfl

theorem holds_links {f : Footer} (h : shape.Holds (.list rows) f) :
    shape.Holds (.table [("links", .list rows)]) f.expand := by
  obtain ⟨_, sections, ⟨⟩, held, bare⟩ | ⟨_, _, ⟨⟩, _⟩ := h
  cases f with
  | table t => contradiction
  | bare _ =>
    obtain rfl := Sum.inl.inj bare
    refine .inr ⟨_, (none, some _, ()), rfl, ?_, rfl⟩
    exact ⟨.none, .some ⟨rows, rfl, held⟩, trivial⟩

end Footer

/-! ## Sites -/

/-- What stands at one place, changed if it is the one that is meant. -/
def changedAt (place here : List Step) (f : α → α) (o : Option α) : Option α :=
  if place = here then o.map f else o

theorem isSome_changedAt (here : List Step) (f : α → α) (o : Option α) :
    (changedAt place here f o).isSome = o.isSome := by
  unfold changedAt
  split
  · exact Option.isSome_map
  · rfl

theorem elim_changedAt {f : α → α} {look : α → β} (h : ∀ a, look (f a) = look a)
    (here : List Step) (o : Option α) (d : β) :
    (changedAt place here f o).elim d look = o.elim d look := by
  unfold changedAt
  split
  · cases o <;> simp [h]
  · rfl

/-- What is found in a section at the top, if no section is further in under its key. -/
theorem below_changedAt {f : α → α} {look : α → List Finding}
    (h : ∀ a, look (f a) = (look a).map (Located.expand [])) {key : String}
    (top : ∀ rest, place = .key key :: rest → rest = []) (o : Option α) :
    Located.below (.key key) ((changedAt place [.key key] f o).elim [] look) =
      (Located.below (.key key) (o.elim [] look)).map (Located.expand place) := by
  by_cases head : place.head? = some (.key key)
  · obtain ⟨rest, rfl⟩ := List.head?_eq_some_iff.1 head
    obtain rfl := top rest rfl
    rw [Located.map_expand_below, changedAt, if_pos rfl]
    cases o with
    | none => rfl
    | some a => exact congrArg _ (h a)
  · have other : place ≠ [.key key] := fun same => head (same ▸ rfl)
    rw [Located.map_expand_below_of_ne head, changedAt, if_neg other]

/-- The theme with the section at a place in the form of a table. -/
def Theme.expand (place : List Step) (t : Theme) : Theme :=
  { t with
    navbar := changedAt place [.key "navbar"] Navbar.expand t.navbar
    footer := changedAt place [.key "footer"] Footer.expand t.footer }

namespace Site

/-- The site with the section at a place in the form of a table. -/
def expand (place : List Step) (s : Site) : Site :=
  { s with
    navbar := changedAt place [.key "navbar"] Navbar.expand s.navbar
    footer := changedAt place [.key "footer"] Footer.expand s.footer
    theme :=
      if place.head? = some (.key "themeConfig") then s.theme.map (Theme.expand place.tail)
      else s.theme }

variable {s : Site}

/-! ## What is read of a site -/

theorem elim_placed (key : String) (outer : Option α) (inner : Theme → Option α)
    (look : Located α → β) (d : β) :
    (s.placed key outer inner).elim d look =
      outer.elim ((s.theme.bind inner).elim d fun a => look ⟨[.key "themeConfig", .key key], a⟩)
        fun a => look ⟨[.key key], a⟩ := by
  unfold placed
  cases outer with
  | some a => rfl
  | none => cases s.theme.bind inner <;> rfl

/-- The theme differs at most in the form of its sections. -/
theorem theme_expand (s : Site) (place : List Step) :
    ∃ inner, (s.expand place).theme = s.theme.map (Theme.expand inner) := by
  unfold expand
  split
  · exact ⟨place.tail, rfl⟩
  · exact ⟨[], (Option.map_id_apply).symm⟩

theorem exists_bind_navbar_expand (s : Site) (place : List Step) :
    ∃ inner, (s.expand place).theme.bind (·.navbar) =
    changedAt inner [.key "navbar"] Navbar.expand (s.theme.bind (·.navbar)) := by
  obtain ⟨inner, theme⟩ := s.theme_expand place
  refine ⟨inner, ?_⟩
  rw [theme]
  cases s.theme <;> simp [Theme.expand, changedAt]

theorem exists_bind_footer_expand (s : Site) (place : List Step) :
    ∃ inner, (s.expand place).theme.bind (·.footer) =
    changedAt inner [.key "footer"] Footer.expand (s.theme.bind (·.footer)) := by
  obtain ⟨inner, theme⟩ := s.theme_expand place
  refine ⟨inner, ?_⟩
  rw [theme]
  cases s.theme <;> simp [Theme.expand, changedAt]

/-- Nothing that looks the same for both forms of a navbar differs. -/
theorem elim_placedNavbar_expand {look : Located Navbar → β}
    (h : ∀ steps (n : Navbar), look ⟨steps, n.expand⟩ = look ⟨steps, n⟩) (d : β) :
    (s.expand place).placedNavbar.elim d look = s.placedNavbar.elim d look := by
  obtain ⟨inner, theme⟩ := s.exists_bind_navbar_expand place
  rw [placedNavbar, placedNavbar, elim_placed, elim_placed, theme, elim_changedAt (h _)]
  exact elim_changedAt (h _) _ _ _

theorem elim_placedFooter_expand {look : Located Footer → β}
    (h : ∀ steps (f : Footer), look ⟨steps, f.expand⟩ = look ⟨steps, f⟩) (d : β) :
    (s.expand place).placedFooter.elim d look = s.placedFooter.elim d look := by
  obtain ⟨inner, theme⟩ := s.exists_bind_footer_expand place
  rw [placedFooter, placedFooter, elim_placed, elim_placed, theme, elim_changedAt (h _)]
  exact elim_changedAt (h _) _ _ _

theorem navbarLinks_expand : (s.expand place).navbarLinks = s.navbarLinks := by
  rw [navbarLinks, navbarLinks, activeNavbar, activeNavbar, Option.elim_map, Option.elim_map]
  exact elim_placedNavbar_expand (fun _ n => n.links_expand) []

theorem footerSections_expand : (s.expand place).footerSections = s.footerSections := by
  rw [footerSections, footerSections, activeFooter, activeFooter, Option.elim_map,
    Option.elim_map]
  exact elim_placedFooter_expand (fun _ f => f.sections_expand) []

theorem footerStyle_expand :
    (s.expand place).activeFooter.map Footer.style = s.activeFooter.map Footer.style := by
  have styled (o : Option (Located Footer)) :
      (o.map (·.what)).map Footer.style = o.elim none fun f => some f.what.style := by
    cases o <;> rfl
  rw [activeFooter, activeFooter, styled, styled]
  refine elim_placedFooter_expand (fun _ f => ?_) none
  exact congrArg some f.style_expand

theorem summary_expand : (s.expand place).summary = s.summary := by
  rw [summary, navbarLinks_expand, footerSections_expand, summary]
  rfl

/-- The same files are named. -/
theorem references_expand : (s.expand place).references = s.references := by
  have images : (s.expand place).navbarImages = s.navbarImages :=
    elim_placedNavbar_expand (fun _ n => by simp only [n.images_expand]) []
  rw [references, images, references]
  rfl

theorem checkReferences_expand (root static : Path) (fs : FileSystem) :
    ((s.expand place).checkReferences (m := StateM FileSystem) root static).run fs =
      (s.checkReferences (m := StateM FileSystem) root static).run fs := by
  rw [checkReferences_eq, checkReferences_eq, missingFiles, references_expand, missingFiles]

/-! ## What the checks find -/

/-- Whether a section is written twice does not depend on its form. -/
theorem checkOnce_changedAt (key : String) (here : List Step) (f : α → α) (outer inner : Option α) :
    checkOnce key (changedAt place here f outer) inner = checkOnce key outer inner ∧
      checkOnce key outer (changedAt place here f inner) = checkOnce key outer inner := by
  simp only [checkOnce, isSome_changedAt, and_self]

theorem map_expand_checkOnce (place : List Step) (key : String) (outer inner : Option α) :
    (checkOnce key outer inner).map (Located.expand place) = checkOnce key outer inner := by
  unfold checkOnce
  split
  · simp [Located.expand, Located.relocate]
  · rfl

/-- The checks of a theme find the same in either form of one of its sections. -/
theorem checkTheme_expand {key : String} (h : key ∈ ["navbar", "footer"]) (s : Site) (t : Theme) :
    s.checkTheme (t.expand [.key key]) = (s.checkTheme t).map (Located.expand [.key key]) := by
  have prism (found : List Finding) :
      (Located.below (.key "prism") found).map (Located.expand [.key key]) =
        Located.below (.key "prism") found := by
    refine Located.map_expand_below_of_ne (fun head => ?_) found
    obtain rfl := Step.key.inj (Option.some.inj head)
    exact absurd h (by decide)
  have alone (name : String) (rest : List Step) (same : [Step.key key] = .key name :: rest) :
      rest = [] := (List.cons.inj same).2.symm
  have navbar := below_changedAt Navbar.check_expand (alone "navbar") t.navbar
  have footer := below_changedAt Footer.check_expand (alone "footer") t.footer
  simp only [checkTheme, Theme.check, Theme.expand, navbar, footer, List.map_append, prism,
    map_expand_checkOnce, (checkOnce_changedAt ..).2]

theorem below_theme_expand (h : place ∈ sectionPlaces) (s : Site) :
    Located.below (.key "themeConfig")
        ((s.expand place).theme.elim [] (s.expand place).checkTheme) =
      (Located.below (.key "themeConfig") (s.theme.elim [] s.checkTheme)).map
        (Located.expand place) := by
  have same : (s.expand place).checkTheme = s.checkTheme := by
    funext t
    simp only [checkTheme, expand, (checkOnce_changedAt ..).1]
  rw [same]
  obtain ⟨key, hk, rfl | rfl⟩ := mem_sectionPlaces_iff.1 h
  · have other : [Step.key key].head? ≠ some (.key "themeConfig") := by
      rintro ⟨⟩
      exact absurd hk (by decide)
    rw [Located.map_expand_below_of_ne other, expand, if_neg other]
  · have moved : (s.expand [.key "themeConfig", .key key]).theme =
        s.theme.map (Theme.expand [.key key]) := by
      rw [expand, if_pos List.head?_cons, List.tail_cons]
    rw [Located.map_expand_below, moved]
    cases s.theme with
    | none => rfl
    | some t => exact congrArg _ (checkTheme_expand hk s t)

/-- The checks find the same in either form, through the key of the links if there is one. -/
theorem check_expand (h : place ∈ sectionPlaces) (s : Site) :
    (s.expand place).check = s.check.map (Located.expand place) := by
  have fixed (name : String) (other : name ∉ ["themeConfig", "navbar", "footer"])
      (found : List Finding) : (Located.below (.key name) found).map (Located.expand place) =
        Located.below (.key name) found := by
    refine Located.map_expand_below_of_ne (fun head => other (.tail _ ?_)) found
    obtain ⟨rest, same⟩ := List.head?_eq_some_iff.1 head
    exact (top_of_sectionPlace h name (List.ne_of_not_mem_cons other) rest same).1
  have metadata : s.checkMetadata.map (Located.expand place) = s.checkMetadata := by
    simp only [checkMetadata, List.map_append, fixed "title" (by decide), fixed "url" (by decide),
      fixed "baseUrl" (by decide), fixed "favicon" (by decide)]
  have navbar := below_changedAt Navbar.check_expand
    (fun rest same => (top_of_sectionPlace h "navbar" (by decide) rest same).2) s.navbar
  have footer := below_changedAt Footer.check_expand
    (fun rest same => (top_of_sectionPlace h "footer" (by decide) rest same).2) s.footer
  rw [check, check]
  simp only [List.map_append, metadata, ← navbar, ← footer, fixed "prism" (by decide),
    fixed "presets" (by decide), ← below_theme_expand h s]
  rfl

/-! ## Visits -/

end Site

/-- The fields of a site and those of a theme visit both forms of a section alike. -/
theorem visitKey_links {key : String} (h : key ∈ ["navbar", "footer"]) (rows : List Json) :
    Theme.fields.visitKey key (.table [("links", .list rows)]) =
        (Theme.fields.visitKey key (.list rows)).map (Located.expand []) ∧
      Site.fields.visitKey key (.table [("links", .list rows)]) =
        (Site.fields.visitKey key (.list rows)).map (Located.expand []) := by
  simp only [List.mem_cons, List.not_mem_nil, or_false] at h
  rcases h with rfl | rfl
  · simp [Theme.fields, Site.fields, Fields.visitKey, Navbar.visit_links]
  · simp [Theme.fields, Site.fields, Fields.visitKey, Footer.visit_links]

theorem mem_keys_of_section {key : String} (h : key ∈ ["navbar", "footer"]) :
    key ∈ Theme.fields.keys ∧ key ∈ Site.fields.keys := by
  simp only [List.mem_cons, List.not_mem_nil, or_false] at h
  rcases h with rfl | rfl <;> decide

theorem Theme.visit_replaceAt {key : String} (h : key ∈ ["navbar", "footer"]) {theme : Json}
    (once : theme.KeysOnce) (bare : theme.at? [.key key] = some (.list rows)) :
    shape.visit (theme.replaceAt [.key key] (.table [("links", .list rows)])) =
      (shape.visit theme).map (Located.expand [.key key]) := by
  obtain ⟨_, part, ⟨⟩⟩ := Json.at?_cons_eq_some_iff.1 bare
  obtain ⟨members, rfl, found⟩ := Json.exists_members_of_part? part
  exact Shape.visit_record_replaceAt (mem_keys_of_section h).1 once.1 found
    (visitKey_links h rows).1

/-- A visit meets the same after a bare section was replaced by a table, and in the same order. -/
theorem Site.visit_replaceAt (h : place ∈ sectionPlaces) {raw : Json} (once : raw.KeysOnce)
    (bare : raw.at? place = some (.list rows)) :
    shape.visit (raw.replaceAt place (.table [("links", .list rows)])) =
      (shape.visit raw).map (Located.expand place) := by
  obtain ⟨key, hk, rfl | rfl⟩ := mem_sectionPlaces_iff.1 h
  · obtain ⟨_, part, ⟨⟩⟩ := Json.at?_cons_eq_some_iff.1 bare
    obtain ⟨members, rfl, found⟩ := Json.exists_members_of_part? part
    exact Shape.visit_record_replaceAt (mem_keys_of_section hk).2 once.1 found
      (visitKey_links hk rows).2
  · obtain ⟨theme, part, inTheme⟩ := Json.at?_cons_eq_some_iff.1 bare
    obtain ⟨members, rfl, found⟩ := Json.exists_members_of_part? part
    have themeOnce := Json.keysOnceMembers_iff.1 once.2 _ (mem_of_lookup found)
    have visitKey (v : Json) : fields.visitKey "themeConfig" v = Theme.shape.visit v := by
      simp [fields, Fields.visitKey]
    refine Shape.visit_record_replaceAt (by decide) once.1 found ?_
    rw [visitKey, visitKey]
    exact Theme.visit_replaceAt hk themeOnce inTheme

/-! ## Reading -/

/-- A section at the top is read as it was, in the form that it has now. -/
theorem rel_changedAt {s : Shape α} {f : α → α}
    (links : ∀ a, s.Holds (.list rows) a → s.Holds (.table [("links", .list rows)]) (f a))
    {members members' : Members} {name : String} {o : Option α}
    (top : ∀ rest, place = .key name :: rest → rest = [])
    (bare : (Json.table members).at? place = some (.list rows))
    (replaced : (Json.table members).replaceAt place (.table [("links", .list rows)]) =
      .table members')
    (h : Option.Rel s.Holds (members.lookup name) o) :
    Option.Rel s.Holds (members'.lookup name) (changedAt place [.key name] f o) := by
  match place with
  | [] => exact absurd bare (by simp)
  | .index _ :: _ => contradiction
  | .key key :: rest =>
    obtain ⟨_, same, found, kept⟩ := Json.exists_replaceAt_table members key rest
      (.table [("links", .list rows)])
    obtain rfl := Json.table.inj (replaced.symm.trans same)
    unfold changedAt
    by_cases here : key = name
    · obtain rfl := here
      obtain rfl := top rest rfl
      have list : members.lookup key = some (.list rows) := by
        obtain ⟨_, part, ⟨⟩⟩ := Json.at?_cons_eq_some_iff.1 bare
        exact part
      rw [list] at h
      rw [if_pos rfl, found, list]
      cases o with
      | none => contradiction
      | some a =>
        obtain ⟨_, ⟨⟩, held⟩ := rel_some_iff.1 h
        exact .some (links a held)
    · rw [if_neg (by simp [here]), kept name (Ne.symm here)]
      exact h

theorem Theme.holds_replaceAt {key : String} (hk : key ∈ ["navbar", "footer"]) {theme : Json}
    (bare : theme.at? [.key key] = some (.list rows)) {t : Theme} (holds : shape.Holds theme t) :
    shape.Holds (theme.replaceAt [.key key] (.table [("links", .list rows)]))
      (t.expand [.key key]) := by
  obtain ⟨_, part, _⟩ := Json.at?_cons_eq_some_iff.1 bare
  obtain ⟨members, rfl, _⟩ := Json.exists_members_of_part? part
  obtain ⟨_, ⟨⟩, hold⟩ | ⟨_, ⟨⟩, _⟩ := holds
  obtain ⟨members', replaced, _, kept⟩ := Json.exists_replaceAt_table members key []
    (.table [("links", .list rows)])
  have stays (name : String) (other : name ∉ ["navbar", "footer"]) :
      members'.lookup name = members.lookup name := kept name fun same => other (same ▸ hk)
  have alone (name : String) (rest : List Step) (same : [Step.key key] = .key name :: rest) :
      rest = [] := (List.cons.inj same).2.symm
  simp only [fields, Fields.Hold, Source.ofTable] at hold
  obtain ⟨hideOnScroll, prism, navbar, footer, _⟩ := hold
  refine .inl ⟨members', replaced, ?_⟩
  simp only [fields, Fields.Hold, Source.ofTable, stays "hideOnScroll" (by decide),
    stays "prism" (by decide)]
  exact ⟨hideOnScroll, prism,
    rel_changedAt (fun _ => Navbar.holds_links) (alone "navbar") bare replaced navbar,
    rel_changedAt (fun _ => Footer.holds_links) (alone "footer") bare replaced footer, trivial⟩

theorem Site.rel_theme_replaceAt (h : place ∈ sectionPlaces) {members members' : Members}
    (bare : (Json.table members).at? place = some (.list rows))
    (replaced : (Json.table members).replaceAt place (.table [("links", .list rows)]) =
      .table members') {s : Site}
    (theme : Option.Rel Theme.shape.Holds (members.lookup "themeConfig") s.theme) :
    Option.Rel Theme.shape.Holds (members'.lookup "themeConfig") (s.expand place).theme := by
  unfold expand
  obtain ⟨key, hk, rfl | rfl⟩ := mem_sectionPlaces_iff.1 h
  · have other : "themeConfig" ≠ key := by
      rintro rfl
      exact absurd hk (by decide)
    obtain ⟨_, same, _, kept⟩ := Json.exists_replaceAt_table members key []
      (.table [("links", .list rows)])
    obtain rfl := Json.table.inj (replaced.symm.trans same)
    rw [kept "themeConfig" other, if_neg (by simpa using other.symm)]
    exact theme
  · obtain ⟨_, same, found, _⟩ := Json.exists_replaceAt_table members "themeConfig" [.key key]
      (.table [("links", .list rows)])
    obtain rfl := Json.table.inj (replaced.symm.trans same)
    obtain ⟨inner, part, inTheme⟩ := Json.at?_cons_eq_some_iff.1 bare
    have part : members.lookup "themeConfig" = some inner := part
    rw [part] at theme
    rw [found, part, if_pos List.head?_cons, List.tail_cons]
    cases ht : s.theme with
    | none => simp [ht] at theme
    | some t =>
      rw [ht, Option.rel_some_some] at theme
      exact .some (Theme.holds_replaceAt hk inTheme theme)

theorem Site.holds_replaceAt (h : place ∈ sectionPlaces) {raw : Json}
    (bare : raw.at? place = some (.list rows)) {s : Site} (holds : shape.Holds raw s) :
    shape.Holds (raw.replaceAt place (.table [("links", .list rows)])) (s.expand place) := by
  have top := top_of_sectionPlace h
  obtain ⟨members, rfl, key, rest, rfl, hk⟩ : ∃ members, raw = .table members ∧
      ∃ key rest, place = .key key :: rest ∧ key ∈ ["navbar", "footer", "themeConfig"] := by
    obtain ⟨key, hk, rfl | rfl⟩ := mem_sectionPlaces_iff.1 h
    all_goals
      obtain ⟨_, part, _⟩ := Json.at?_cons_eq_some_iff.1 bare
      obtain ⟨members, rfl, _⟩ := Json.exists_members_of_part? part
    · exact ⟨members, rfl, key, [], rfl, List.mem_append_left ["themeConfig"] hk⟩
    · exact ⟨members, rfl, "themeConfig", [.key key], rfl, by decide⟩
  obtain ⟨_, ⟨⟩, hold⟩ | ⟨_, ⟨⟩, _⟩ := holds
  obtain ⟨members', replaced, _, kept⟩ := Json.exists_replaceAt_table members key rest
    (.table [("links", .list rows)])
  -- Only the value under the first key of the place differs, and that is one of these three.
  have stays (name : String) (other : name ∉ ["navbar", "footer", "themeConfig"]) :
      members'.lookup name = members.lookup name := kept name fun same => other (same ▸ hk)
  simp only [fields, Fields.Hold, Source.ofTable] at hold
  obtain ⟨title, tagline, url, baseUrl, favicon, organization, project, navbar, footer, prism,
    theme, presets, _⟩ := hold
  refine .inl ⟨members', replaced, ?_⟩
  simp only [fields, Fields.Hold, Source.ofTable, stays "title" (by decide),
    stays "tagline" (by decide), stays "url" (by decide), stays "baseUrl" (by decide),
    stays "favicon" (by decide), stays "organizationName" (by decide),
    stays "projectName" (by decide), stays "prism" (by decide), stays "presets" (by decide)]
  exact ⟨title, tagline, url, baseUrl, favicon, organization, project,
    rel_changedAt (fun _ => Navbar.holds_links)
      (fun rest same => (top "navbar" (by decide) rest same).2) bare replaced navbar,
    rel_changedAt (fun _ => Footer.holds_links)
      (fun rest same => (top "footer" (by decide) rest same).2) bare replaced footer,
    prism, rel_theme_replaceAt h bare replaced theme, presets, trivial⟩

/-! ## Paths through the key of the links -/

namespace FieldPath

/-- What stands behind an index is written behind the path to it. -/
theorem ofSteps_append_index (p : List Step) (i : Nat) (rest : List Step) :
    ofSteps (p ++ .index i :: rest) = ⟨(ofSteps p).text ++ (ofSteps (.index i :: rest)).text⟩ := by
  have first : (root.index i).isRoot = false := by simp [isRoot, root, index]
  have start : (ofSteps p).index i = ⟨(ofSteps p).text ++ (root.index i).text⟩ := by
    simp [index, root, String.append_assoc]
  have moved : (mk ((ofSteps p).text ++ (root.index i).text)).extend rest =
      ⟨(ofSteps p).text ++ ((root.index i).extend rest).text⟩ := extend_opened first rest
  rw [ofSteps, extend, List.foldl_append, List.foldl_cons]
  exact (congrArg (fun path => path.extend rest) start).trans moved

theorem ofSteps_concat_key {p : List Step} (h : (ofSteps p).isRoot = false) (key : String) :
    ofSteps (p ++ [.key key]) = ⟨(ofSteps p).text ++ ("." ++ key)⟩ := by
  rw [ofSteps_concat, push, FieldPath.key, if_neg (by simp [h]), String.append_assoc]

end FieldPath

/-! ## Loading either form -/

namespace Site

variable {raw : Json.Raw}

theorem result_replaceAt_eq_ok (h : place ∈ sectionPlaces)
    (bare : raw.value.at? place = some (.list rows)) {s : Site}
    (ok : (shape.decode raw.value).result = .ok s) :
    (shape.decode (raw.value.replaceAt place (.table [("links", .list rows)]))).result =
      .ok (s.expand place) := by
  obtain ⟨fit, read⟩ := Shape.result_decode_eq_ok_iff.1 ok
  have holds := holds_replaceAt h bare ((shape.read_eq_some_iff _ s).1 read)
  refine Shape.result_decode_eq_ok_iff.2 ⟨?_, (shape.read_eq_some_iff _ _).2 holds⟩
  rw [visit_replaceAt h raw.once bare]
  exact AllFit.map_relocate_iff.2 fit

/-- The key at the end stays what it is. -/
theorem unknownKey_expand (place steps : List Step) :
    unknownKey (expandSteps place steps) = (unknownKey steps).expand place := by
  have last : lastKey (expandSteps place steps) = lastKey steps := by
    rw [lastKey, getLast?_expandSteps, lastKey]
  simp only [unknownKey, last, Located.expand, Located.relocate]

theorem result_replaceAt_eq_ok_iff (h : place ∈ sectionPlaces)
    (bare : raw.value.at? place = some (.list rows)) {t : Site} :
    (shape.decode (raw.value.replaceAt place (.table [("links", .list rows)]))).result = .ok t ↔
      ∃ s, (shape.decode raw.value).result = .ok s ∧ s.expand place = t := by
  constructor
  · intro ok'
    cases result : (shape.decode raw.value).result with
    | error m =>
      have stop := Shape.result_eq_error_of_visit_eq_map (visit_replaceAt h raw.once bare) result
      rw [ok'] at stop
      contradiction
    | ok s =>
      exact ⟨s, rfl, Except.ok.inj ((result_replaceAt_eq_ok h bare result).symm.trans ok')⟩
  · rintro ⟨s, ok, rfl⟩
    exact result_replaceAt_eq_ok h bare ok

/-- The same is found in the same order, through the key of the links if it is in a row. -/
theorem findings_replaceAt (h : place ∈ sectionPlaces)
    (bare : raw.value.at? place = some (.list rows)) :
    findings (shape.decode (raw.value.replaceAt place (.table [("links", .list rows)]))) =
      (findings (shape.decode raw.value)).map (Located.expand place) := by
  have visit := visit_replaceAt h raw.once bare
  have unknown := Shape.unknown_of_visit_eq_map visit
  have keys : ((shape.decode raw.value).unknown.map (expandSteps place)).map unknownKey =
      ((shape.decode raw.value).unknown.map unknownKey).map (Located.expand place) := by
    rw [List.map_map, List.map_map]
    exact List.map_congr_left fun steps _ => unknownKey_expand place steps
  rw [findings, findings, unknown, keys, List.map_append]
  congr 1
  -- Behind the unknown keys stands what ended the reading, or what the checks found.
  cases result : (shape.decode raw.value).result with
  | error m =>
    rw [Shape.result_eq_error_of_visit_eq_map visit result]
    rfl
  | ok s =>
    rw [result_replaceAt_eq_ok h bare result]
    exact check_expand h s

theorem isRoot_sectionPlace (h : place ∈ sectionPlaces) :
    (FieldPath.ofSteps place).isRoot = false := by
  have named : ∀ p ∈ sectionPlaces, (FieldPath.ofSteps p).isRoot = false := by decide +kernel
  exact named place h

/-- What is told of a finding when the rows of the list at a place are under a key of links. -/
def expandedDiagnostic (place : List Step) (f : Finding) : Diagnostic :=
  { f.diagnostic .root with field := .ofSteps (expandSteps place f.steps) }

theorem ofFindings_map_expand (place : List Step) (found : List Finding) :
    Diagnostics.ofFindings .root (found.map (Located.expand place)) =
      ⟨(found.filter Finding.isError).map (expandedDiagnostic place),
        (found.filter (!Finding.isError ·)).map (expandedDiagnostic place)⟩ := by
  rw [Diagnostics.ofFindings, List.filter_map, List.filter_map, List.map_map, List.map_map]
  rfl

theorem load_replaceAt_eq_ok_iff (h : place ∈ sectionPlaces)
    (bare : raw.value.at? place = some (.list rows)) {t : Site} {warnings' : Diagnostics} :
    load (raw.value.replaceAt place (.table [("links", .list rows)])) = .ok (t, warnings') ↔
      ∃ s warnings, load raw.value = .ok (s, warnings) ∧ s.expand place = t ∧
        t.diagnostics = warnings' := by
  refine load_eq_ok_iff_of_result (fun _ => result_replaceAt_eq_ok_iff h bare) fun s _ => ?_
  rw [findings_replaceAt h bare, List.forall_mem_map]
  rfl

/-- A bare list and a table with that list under its links are interchangeable as navbar and as
footer, in either layout. Either form is read, and loaded, exactly if the other one is. The same is
told of both in the same order, and only a path into a row of the list goes through the key of the
links. What a loaded site shows and the search for its files do not differ at all. -/
theorem load_expanded (raw : Json.Raw) (place : List Step) (h : place ∈ sectionPlaces)
    (rows : List Json) (bare : raw.value.at? place = some (.list rows)) :
    ((∃ s, (shape.decode raw.value).result = .ok s) ↔
      ∃ t, (shape.decode (raw.value.withLinks place rows)).result = .ok t) ∧
    ((∃ loaded, load raw.value = .ok loaded) ↔
      ∃ loaded, load (raw.value.withLinks place rows) = .ok loaded) ∧
    told raw.value = .ofFindings .root (findings (shape.decode raw.value)) ∧
    told (raw.value.withLinks place rows) =
      ⟨((findings (shape.decode raw.value)).filter Finding.isError).map (expandedDiagnostic place),
        ((findings (shape.decode raw.value)).filter (!Finding.isError ·)).map
          (expandedDiagnostic place)⟩ ∧
    (∀ i rest,
      FieldPath.ofSteps (place ++ .index i :: rest) =
        ⟨(FieldPath.ofSteps place).text ++ (FieldPath.ofSteps (.index i :: rest)).text⟩ ∧
      FieldPath.ofSteps (expandSteps place (place ++ .index i :: rest)) =
        ⟨(FieldPath.ofSteps place).text ++ ".links" ++
          (FieldPath.ofSteps (.index i :: rest)).text⟩) ∧
    (∀ steps, (∀ i rest, steps ≠ place ++ .index i :: rest) → expandSteps place steps = steps) ∧
    ∀ s t warnings warnings', load raw.value = .ok (s, warnings) →
      load (raw.value.withLinks place rows) = .ok (t, warnings') →
      t.navbarLinks = s.navbarLinks ∧ t.footerSections = s.footerSections ∧
      t.activeFooter.map Footer.style = s.activeFooter.map Footer.style ∧
      t.summary = s.summary ∧
      ∀ (fs : FileSystem) (root static : Path),
        (t.checkReferences (m := StateM FileSystem) root static).run fs =
          (s.checkReferences (m := StateM FileSystem) root static).run fs := by
  unfold Json.withLinks
  have result (t : Site) := result_replaceAt_eq_ok_iff h bare (t := t)
  have loaded (t : Site) (warnings' : Diagnostics) :
      load (raw.value.replaceAt place (.table [("links", .list rows)])) = .ok (t, warnings') ↔
        ∃ s warnings, load raw.value = .ok (s, warnings) ∧ s.expand place = t ∧
          t.diagnostics = warnings' := load_replaceAt_eq_ok_iff h bare
  refine ⟨⟨?_, ?_⟩, ⟨?_, ?_⟩, told_eq_ofFindings raw.value, ?_, fun i rest => ⟨?_, ?_⟩,
    fun steps => expandSteps_of_not_row, fun s t warnings warnings' ok ok' => ?_⟩
  · rintro ⟨s, ok⟩
    exact ⟨_, (result _).2 ⟨s, ok, rfl⟩⟩
  · rintro ⟨t, ok⟩
    obtain ⟨s, ok, _⟩ := (result t).1 ok
    exact ⟨s, ok⟩
  · rintro ⟨⟨s, warnings⟩, ok⟩
    exact ⟨_, (loaded ..).2 ⟨s, warnings, ok, rfl, rfl⟩⟩
  · rintro ⟨⟨t, warnings'⟩, ok⟩
    obtain ⟨s, warnings, ok, _⟩ := (loaded ..).1 ok
    exact ⟨_, ok⟩
  · rw [told_eq_ofFindings, findings_replaceAt h bare, ofFindings_map_expand]
  · exact FieldPath.ofSteps_append_index place i rest
  · rw [expandSteps_row, List.append_cons, FieldPath.ofSteps_append_index,
      FieldPath.ofSteps_concat_key (isRoot_sectionPlace h)]
    rfl
  · obtain ⟨s', _, found, rfl, _⟩ := (loaded ..).1 ok'
    obtain ⟨rfl, _⟩ := Prod.mk.inj (Except.ok.inj (found.symm.trans ok))
    exact ⟨navbarLinks_expand, footerSections_expand, footerStyle_expand, summary_expand,
      fun fs root static => checkReferences_expand root static fs⟩

/-- A manifest with a bare footer in its theme table, one section of which has no links. -/
def bareTable : Json.Raw where
  value := .table [("title", .string "T"), ("url", .string "https://example.com"),
    ("baseUrl", .string "/"), ("themeConfig", .table [("navbar", .list []),
      ("footer", .list [.table [("title", .string "More"), ("items", .list [])]])])]
  once := by simp [Json.KeysOnce, Json.KeysOnceItems, Json.KeysOnceMembers]

def bareSite : Site where
  title := "T"
  tagline := none
  url := "https://example.com"
  baseUrl := "/"
  favicon := none
  organizationName := none
  projectName := none
  navbar := none
  footer := none
  prism := none
  theme := some ⟨none, none, some (.bare []), some (.bare [⟨"More", []⟩])⟩
  presets := none

def footerPlace : List Step := [.key "themeConfig", .key "footer"]

def footerRows : List Json := [.table [("title", .string "More"), ("items", .list [])]]

theorem bare_load_expanded :
    footerPlace ∈ sectionPlaces ∧
      bareTable.value.at? footerPlace = some (.list footerRows) ∧
      load bareTable.value = .ok (bareSite, ⟨[], [⟨⟨"themeConfig.footer[0].items"⟩,
        "footer section has no links", none⟩]⟩) ∧
      told (bareTable.value.withLinks footerPlace footerRows) =
        ⟨[], [⟨⟨"themeConfig.footer.links[0].items"⟩, "footer section has no links", none⟩]⟩ ∧
      ∃ loaded, load (bareTable.value.withLinks footerPlace footerRows) = .ok loaded := by
  have place : footerPlace ∈ sectionPlaces := by decide
  have bare : bareTable.value.at? footerPlace = some (.list footerRows) := by decide +kernel
  have loaded : load bareTable.value = .ok (bareSite, ⟨[], [⟨⟨"themeConfig.footer[0].items"⟩,
      "footer section has no links", none⟩]⟩) := by decide +kernel
  have found : findings (shape.decode bareTable.value) =
      [⟨footerPlace ++ [.index 0, .key "items"], .emptySection⟩] := by decide +kernel
  obtain ⟨_, outcome, _, told, _⟩ := load_expanded bareTable footerPlace place footerRows bare
  refine ⟨place, bare, loaded, ?_, outcome.1 ⟨_, loaded⟩⟩
  rw [told, found]
  decide +kernel

end Site

end SiteManifest
