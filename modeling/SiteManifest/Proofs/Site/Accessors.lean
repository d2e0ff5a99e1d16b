import SiteManifest.Proofs.Site.Parts

/-!
# What a site shows

The accessors of a site look into one of two layouts and one of two shapes. The checks see to it
that there is nothing in the others, so everything that was written is shown, and every link that is
shown leads somewhere.

## Main definitions

* `Json.writtenRows`: everything that a manifest lists in its sections of one key.
* `Link.Leads`: a link has a label and a single target.

## Main statements

* `Site.shows_of_load`: the accessors of a loaded site hide nothing.
-/
namespace SiteManifest

open Text

/-! ## Rows of a section -/

/-- What a section lists: it is a list, or a table with a list under its links. -/
def Json.rows (v : Json) : List Json :=
  match v with
  | .list vs => vs
  | v =>
    match v.part? (.key "links") with
    | some (.list vs) => vs
    | _ => []

/-- What all sections of one key list, at the top level and then in the theme table. -/
def Json.writtenRows (v : Json) (key : String) : List Json :=
  (v.at? [.key key]).elim [] rows ++ (v.at? [.key "themeConfig", .key key]).elim [] rows

/-- A table lists what it has under its links, if there is anything. -/
theorem Json.rows_of_links {members : Members} {o : Option (List α)} {write : α → Json}
    (found : (Json.table members).part? (.key "links") = o.map fun as => .list (as.map write)) :
    (Json.table members).rows = (o.getD []).map write := by
  rw [rows, found]
  · cases o <;> rfl
  · intro vs list
    contradiction

theorem Navbar.rows_write (n : Navbar) : (shape.write n).rows = n.links.map Link.shape.write := by
  cases n with
  | bare links => rfl
  | table t => exact Json.rows_of_links (part?_write_table t).2

theorem Footer.rows_write (f : Footer) :
    (shape.write f).rows = f.sections.map FooterSection.shape.write := by
  cases f with
  | bare sections => rfl
  | table t => exact Json.rows_of_links (part?_write_table t)

namespace Site

variable {s : Site} {key : String} {outer : Option α} {inner : Theme → Option α}

/-- If a section is written once, what it lists is all that is listed under its key. -/
theorem writtenRows_toJson {write : α → Json} {shown : Option α}
    (found : s.toJson.part? (.key key) = outer.map write)
    (inTheme : ∀ t, (Theme.shape.write t).part? (.key key) = (inner t).map write)
    (shows : s.Shows outer inner shown) :
    s.toJson.writtenRows key = shown.elim [] fun a => (write a).rows := by
  rw [Json.writtenRows, at?_outer found, at?_inner inTheme]
  cases ho : outer with
  | some a =>
    rw [(shows.eq_some_iff a).2 (.inl ho), inner_eq_none shows.once ho]
    exact List.append_nil _
  | none =>
    have same : shown = s.theme.bind inner := by
      ext a
      rw [shows.eq_some_iff, ho, Option.bind_eq_some_iff]
      simp
    rw [same]
    cases s.theme.bind inner <;> rfl

end Site

/-! ## Links -/

/-- A link has a label and one target: a page with a name, or a URL with a scheme. -/
structure Link.Leads (l : Link) : Prop where
  label : ¬IsBlank l.label
  target : ∃ t, l.target? = some t
  page (path : String) (h : l.page = some path) : ¬IsBlank path ∧ l.target? = some (.page path)
  href (url : String) (h : l.href = some url) : IsAbsolute url ∧ l.target? = some (.external url)

/-- A link without faults leads somewhere. -/
theorem Link.leads_of_no_fault {l : Link} (sound : ∀ steps, ¬l.FaultAt steps) : l.Leads := by
  have label : ¬IsBlank l.label := fun blank => sound _ (.label blank)
  cases hp : l.page with
  | none =>
    cases hu : l.href with
    | none => exact absurd (.noTarget hp hu) (sound _)
    | some url =>
      have target : l.target? = some (.external url) := by rw [target?, hp, hu]
      have absolute : IsAbsolute url := by
        by_contra relative
        exact sound _ (.href hp hu (.inr relative))
      refine ⟨label, ⟨_, target⟩, ?_, ?_⟩
      · intro path h
        rw [hp] at h
        contradiction
      · intro other h
        obtain rfl : url = other := Option.some.inj (hu.symm.trans h)
        exact ⟨absolute, target⟩
  | some path =>
    cases hu : l.href with
    | some url => exact absurd (.twoTargets hp hu) (sound _)
    | none =>
      have target : l.target? = some (.page path) := by rw [target?, hp, hu]
      have named : ¬IsBlank path := fun blank => sound _ (.page hp hu blank)
      refine ⟨label, ⟨_, target⟩, ?_, ?_⟩
      · intro other h
        obtain rfl : path = other := Option.some.inj (hp.symm.trans h)
        exact ⟨named, target⟩
      · intro url h
        rw [hu] at h
        contradiction

theorem no_fault_of_mem {fault : α → List Step → Prop} {as : List α} {a : α}
    (sound : ∀ steps, ¬FaultAmong fault as steps) (h : a ∈ as) (steps : List Step) :
    ¬fault a steps := by
  intro hf
  obtain ⟨i, hi⟩ := List.mem_iff_getElem?.1 h
  exact sound _ (.intro hi hf)

theorem Navbar.leads_of_no_fault {n : Navbar} (sound : ∀ steps, ¬n.FaultAt steps) {l : Link}
    (h : l ∈ n.links) : l.Leads := by
  apply Link.leads_of_no_fault
  cases n with
  | bare links =>
    apply no_fault_of_mem _ h
    intro steps among
    exact sound _ (.bare among)
  | table t =>
    cases hl : t.links with
    | none =>
      rw [links, hl] at h
      contradiction
    | some links =>
      rw [Navbar.links, hl] at h
      apply no_fault_of_mem _ h
      intro steps among
      exact sound _ (.links hl among)

theorem FooterSection.leads_of_no_fault {c : FooterSection} (sound : ∀ steps, ¬c.FaultAt steps)
    {l : Link} (h : l ∈ c.items) : l.Leads := by
  apply Link.leads_of_no_fault
  apply no_fault_of_mem _ h
  intro steps among
  exact sound _ (.items among)

theorem Footer.leads_of_no_fault {f : Footer} (sound : ∀ steps, ¬f.FaultAt steps)
    {c : FooterSection} (hc : c ∈ f.sections) {l : Link} (h : l ∈ c.items) : l.Leads := by
  apply FooterSection.leads_of_no_fault _ h
  cases f with
  | bare sections =>
    apply no_fault_of_mem _ hc
    intro steps among
    exact sound _ (.bare among)
  | table t =>
    cases hs : t.links with
    | none =>
      rw [sections, hs] at hc
      contradiction
    | some sections =>
      rw [Footer.sections, hs] at hc
      apply no_fault_of_mem _ hc
      intro steps among
      exact sound _ (.links hs among)

/-! ## The accessors -/

namespace Site

/-- Nothing of a loaded site is hidden. Its navbar, footer and prism are shown wherever they are
written, its links and footer sections are all that the manifest lists, in their order, and every
link leads to the one target that it names. -/
theorem shows_of_load {raw : Json} {s : Site} {warnings : Diagnostics}
    (h : load raw = .ok (s, warnings)) :
    s.Shows s.navbar Theme.navbar s.activeNavbar ∧ s.Shows s.footer Theme.footer s.activeFooter ∧
      s.Shows s.prism Theme.prism s.activePrism ∧
      s.navbarLinks.map Link.shape.write = s.toJson.writtenRows "navbar" ∧
      s.footerSections.map FooterSection.shape.write = s.toJson.writtenRows "footer" ∧
      (∀ l ∈ s.navbarLinks, l.Leads) ∧ ∀ c ∈ s.footerSections, ∀ l ∈ c.items, l.Leads := by
  have sound := not_faultAt_of_load h
  have navbarOnce := shows_placed "navbar" fun twice => sound _ (.navbarTwice twice)
  have footerOnce := shows_placed "footer" fun twice => sound _ (.footerTwice twice)
  have prismOnce := shows_placed "prism" fun twice => sound _ (.prismTwice twice)
  have navbar : s.Shows s.navbar Theme.navbar s.activeNavbar := navbarOnce
  have footer : s.Shows s.footer Theme.footer s.activeFooter := footerOnce
  obtain ⟨_, navbarFound, footerFound, _⟩ := s.part?_toJson_optional
  refine ⟨navbar, footer, prismOnce, ?_, ?_, ?_, ?_⟩
  · rw [writtenRows_toJson navbarFound (fun t => t.part?_write.1) navbar, navbarLinks]
    cases s.activeNavbar with
    | none => rfl
    | some n => exact n.rows_write.symm
  · rw [writtenRows_toJson footerFound (fun t => t.part?_write.2.1) footer, footerSections]
    cases s.activeFooter with
    | none => rfl
    | some f => exact f.rows_write.symm
  · intro l hl
    cases hn : s.activeNavbar with
    | none =>
      rw [navbarLinks, hn] at hl
      contradiction
    | some n =>
      rw [navbarLinks, hn] at hl
      obtain ⟨place, written⟩ := (writtenAt_iff "navbar").2 ((navbar.eq_some_iff n).1 hn)
      exact n.leads_of_no_fault (fun steps fault => sound _ (.navbar written fault)) hl
  · intro c hc l hl
    cases hf : s.activeFooter with
    | none =>
      rw [footerSections, hf] at hc
      contradiction
    | some f =>
      rw [footerSections, hf] at hc
      obtain ⟨place, written⟩ := (writtenAt_iff "footer").2 ((footer.eq_some_iff f).1 hf)
      exact f.leads_of_no_fault (fun steps fault => sound _ (.footer written fault)) hc hl

/-- A manifest with a bare navbar at the top level and a footer table in the theme table. -/
def columnsTable : Json := .table [("title", .string "T"), ("url", .string "https://example.com"),
  ("baseUrl", .string "/"),
  ("navbar", .list [.table [("to", .string "docs/a"), ("label", .string "A")]]),
  ("themeConfig", .table [("footer", .table [("links", .list [.table [("title", .string "More"),
    ("items", .list [.table [("href", .string "https://example.com/b"),
      ("label", .string "B")]])]])])])]

def columnsSite : Site where
  title := "T"
  tagline := none
  url := "https://example.com"
  baseUrl := "/"
  favicon := none
  organizationName := none
  projectName := none
  navbar := some (.bare [.ofPage "docs/a" "A"])
  footer := none
  prism := none
  theme := some ⟨none, none, none,
    some (.table ⟨none, some [⟨"More", [.ofUrl "https://example.com/b" "B"]⟩]⟩)⟩
  presets := none

theorem columns_shows_of_load :
    load columnsTable = .ok (columnsSite, .empty) ∧
      columnsSite.Shows columnsSite.footer Theme.footer columnsSite.activeFooter ∧
      columnsSite.navbarLinks.map Link.shape.write = columnsSite.toJson.writtenRows "navbar" ∧
      (Link.ofPage "docs/a" "A").Leads ∧ (Link.ofUrl "https://example.com/b" "B").Leads := by
  have loaded : load columnsTable = .ok (columnsSite, .empty) := by decide +kernel
  obtain ⟨_, footer, _, links, _, page, url⟩ := shows_of_load loaded
  exact ⟨loaded, footer, links, page _ (.head _), url _ (.head _) _ (.head _)⟩

end Site

end SiteManifest
