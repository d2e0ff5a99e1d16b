import Mathlib.Tactic.MkIffOfInductiveProp
import SiteManifest.Site.Check

/-!
# Faults of a site

What is wrong with a site and where, said of the site alone and without an order of checking. There
is one rule for each kind of fault, and rules that carry the faults of a part to the place where the
part is written: at the top level or in the theme table, in a bare list or under the keys of a table.

## Main definitions

* `Link.FaultAt`, `Preset.FaultAt` and so on: the faults of a part, counted from the part.
* `Site.WrittenAt`: a section stands in one of the two layouts.
* `Site.FaultAt`: the faults of a site.
-/
namespace SiteManifest

open Text

/-! ## Faults of the parts -/

/-- A fault of one of the things in a row, below its index. -/
inductive FaultAmong (fault : α → List Step → Prop) (as : List α) : List Step → Prop
  | intro {i : Nat} {a : α} {steps : List Step} (ha : as[i]? = some a) (h : fault a steps) :
    FaultAmong fault as (.index i :: steps)

/-- A URL with a scheme of its own. -/
def IsAbsolute (url : String) : Prop := ∃ u, Url.parse url = .ok u

inductive Link.FaultAt (l : Link) : List Step → Prop
  | label (h : IsBlank l.label) : FaultAt l [.key "label"]
  | twoTargets {path url : String} (hp : l.page = some path) (hu : l.href = some url) :
    FaultAt l []
  | noTarget (hp : l.page = none) (hu : l.href = none) : FaultAt l []
  | page {path : String} (hp : l.page = some path) (hu : l.href = none) (h : IsBlank path) :
    FaultAt l [.key "to"]
  | href {url : String} (hp : l.page = none) (hu : l.href = some url)
    (h : IsBlank url ∨ ¬IsAbsolute url) : FaultAt l [.key "href"]

inductive Logo.FaultAt (l : Logo) : List Step → Prop
  | src (h : IsBlank l.src) : FaultAt l [.key "src"]
  | srcDark {dark : String} (hd : l.srcDark = some dark) (h : IsBlank dark) :
    FaultAt l [.key "srcDark"]

inductive Prism.FaultAt (p : Prism) : List Step → Prop
  | theme (h : IsBlank p.theme) : FaultAt p [.key "theme"]
  | darkTheme {dark : String} (hd : p.darkTheme = some dark) (h : IsBlank dark) :
    FaultAt p [.key "darkTheme"]

inductive FooterSection.FaultAt (c : FooterSection) : List Step → Prop
  | title (h : IsBlank c.title) : FaultAt c [.key "title"]
  | items {steps : List Step} (h : FaultAmong Link.FaultAt c.items steps) :
    FaultAt c (.key "items" :: steps)

inductive Navbar.FaultAt : Navbar → List Step → Prop
  | bare {links : List Link} {steps : List Step} (h : FaultAmong Link.FaultAt links steps) :
    FaultAt (.bare links) steps
  | logo {t : NavbarTable} {logo : Logo} {steps : List Step} (hl : t.logo = some logo)
    (h : logo.FaultAt steps) : FaultAt (.table t) (.key "logo" :: steps)
  | links {t : NavbarTable} {links : List Link} {steps : List Step} (hl : t.links = some links)
    (h : FaultAmong Link.FaultAt links steps) : FaultAt (.table t) (.key "links" :: steps)

inductive Footer.FaultAt : Footer → List Step → Prop
  | bare {sections : List FooterSection} {steps : List Step}
    (h : FaultAmong FooterSection.FaultAt sections steps) : FaultAt (.bare sections) steps
  | links {t : FooterTable} {sections : List FooterSection} {steps : List Step}
    (hs : t.links = some sections) (h : FaultAmong FooterSection.FaultAt sections steps) :
    FaultAt (.table t) (.key "links" :: steps)

/-! ## Faults of a preset -/

/-- A value that can be the name of a file. -/
def NamesFile (v : Json) : Prop := ∃ s, v = .string s ∧ ¬IsBlank s

inductive Preset.FaultAt (p : Preset) : List Step → Prop
  | name (h : IsBlank p.name) : FaultAt p []
  | docs {v : Json} (hv : p.option? ["docs"] = some v) (ht : ∀ docs, v ≠ .table docs)
    (hf : v ≠ .bool false) : FaultAt p [.index 1, .key "docs"]
  | sidebarPath {v : Json} (hv : p.option? ["docs", "sidebarPath"] = some v)
    (h : ¬NamesFile v) : FaultAt p [.index 1, .key "docs", .key "sidebarPath"]
  | theme {v : Json} (hv : p.option? ["theme"] = some v) (ht : ∀ theme, v ≠ .table theme) :
    FaultAt p [.index 1, .key "theme"]
  | customCss {v : Json} (hv : p.option? ["theme", "customCss"] = some v)
    (hl : ∀ vs, v ≠ .list vs) (h : ¬NamesFile v) :
    FaultAt p [.index 1, .key "theme", .key "customCss"]
  | stylesheet {vs : List Json} {i : Nat} {v : Json}
    (hv : p.option? ["theme", "customCss"] = some (.list vs)) (hi : vs[i]? = some v)
    (h : ¬NamesFile v) : FaultAt p [.index 1, .key "theme", .key "customCss", .index i]

/-! ## Faults of a site -/

/-- The URL of a server: absolute, with one of the schemes of the web and a host. -/
def IsOrigin (url : String) : Prop :=
  ∃ u, Url.parse url = .ok u ∧ (u.scheme = "http" ∨ u.scheme = "https") ∧ u.host.isSome

namespace Site

/-- A section of a site, at the top level under its key or in the theme table under the same key. -/
inductive WrittenAt (s : Site) (key : String) (outer : Option α) (inner : Theme → Option α) :
    List Step → α → Prop
  | outer {a : α} (h : outer = some a) : WrittenAt s key outer inner [.key key] a
  | inner {t : Theme} {a : α} (ht : s.theme = some t) (h : inner t = some a) :
    WrittenAt s key outer inner [.key "themeConfig", .key key] a

/-- A section that is written in both places. -/
def WrittenTwice (s : Site) (outer : Option α) (inner : Theme → Option α) : Prop :=
  outer.isSome ∧ ∃ t, s.theme = some t ∧ (inner t).isSome

@[mk_iff]
inductive FaultAt (s : Site) : List Step → Prop
  | title (h : IsBlank s.title) : FaultAt s [.key "title"]
  | url (h : ¬IsOrigin s.url) : FaultAt s [.key "url"]
  | baseUrl (h : s.baseUrl.toList.head? ≠ some '/') : FaultAt s [.key "baseUrl"]
  | favicon {path : String} (hf : s.favicon = some path) (h : IsBlank path) :
    FaultAt s [.key "favicon"]
  | navbar {place steps : List Step} {n : Navbar}
    (hn : s.WrittenAt "navbar" s.navbar Theme.navbar place n) (h : n.FaultAt steps) :
    FaultAt s (place ++ steps)
  | footer {place steps : List Step} {f : Footer}
    (hf : s.WrittenAt "footer" s.footer Theme.footer place f) (h : f.FaultAt steps) :
    FaultAt s (place ++ steps)
  | prism {place steps : List Step} {p : Prism}
    (hp : s.WrittenAt "prism" s.prism Theme.prism place p) (h : p.FaultAt steps) :
    FaultAt s (place ++ steps)
  | navbarTwice (h : s.WrittenTwice s.navbar Theme.navbar) :
    FaultAt s [.key "themeConfig", .key "navbar"]
  | footerTwice (h : s.WrittenTwice s.footer Theme.footer) :
    FaultAt s [.key "themeConfig", .key "footer"]
  | prismTwice (h : s.WrittenTwice s.prism Theme.prism) :
    FaultAt s [.key "themeConfig", .key "prism"]
  | presets {presets : List Preset} {steps : List Step} (hp : s.presets = some presets)
    (h : FaultAmong Preset.FaultAt presets steps) : FaultAt s (.key "presets" :: steps)

end Site

end SiteManifest
