import SiteManifest.Shape.Read
import SiteManifest.Shape.Write
import SiteManifest.Site.Preset
import SiteManifest.Site.Theme
import SiteManifest.Text.Display

/-!
# Sites

The manifest of a documentation site. Navbar, footer and prism stand at the top level or inside the
theme table; what is read from a site does not depend on which of the two was chosen.
-/
namespace SiteManifest

open Text

structure Site where
  title : String
  tagline : Option String
  url : String
  baseUrl : String
  favicon : Option String
  organizationName : Option String
  projectName : Option String
  navbar : Option Navbar
  footer : Option Footer
  prism : Option Prism
  theme : Option Theme
  presets : Option (List Preset)
  deriving DecidableEq, Repr

namespace Site

def fields := Fields.required "title" .text <| .optional "tagline" .text <|
  .required "url" .text <| .required "baseUrl" .text <| .optional "favicon" .text <|
  .optional "organizationName" .text <| .optional "projectName" .text <|
  .optional "navbar" Navbar.shape <| .optional "footer" Footer.shape <|
  .optional "prism" Prism.shape <| .optional "themeConfig" Theme.shape <|
  .optional "presets" (.list Preset.shape) .done

def shape : Shape Site := .record "SiteConfig" fields
  { pack := fun (title, tagline, url, baseUrl, favicon, organizationName, projectName, navbar,
        footer, prism, theme, presets, ()) =>
      ⟨title, tagline, url, baseUrl, favicon, organizationName, projectName, navbar, footer,
        prism, theme, presets⟩
    unpack := fun s =>
      (s.title, s.tagline, s.url, s.baseUrl, s.favicon, s.organizationName, s.projectName,
        s.navbar, s.footer, s.prism, s.theme, s.presets, ()) }

/-- The value that the manifest is written as. -/
def toJson (s : Site) : Json := shape.write s

/-- The manifest that a new site starts with. -/
def starter (title url : String) : Site where
  title := title
  tagline := none
  url := url
  baseUrl := "/"
  favicon := none
  organizationName := none
  projectName := none
  navbar := some (.bare [.ofPage "docs/introduction" "Docs"])
  footer := none
  prism := some ⟨"github", some "dracula"⟩
  theme := none
  presets := none

/-! ## Either layout -/

/-- A section at the top level or else in the theme table, with its place. -/
def placed (s : Site) (key : String) (outer : Option α) (inner : Theme → Option α) :
    Option (Located α) :=
  match outer with
  | some a => some ⟨[.key key], a⟩
  | none => (s.theme.bind inner).map fun a => ⟨[.key "themeConfig", .key key], a⟩

def placedNavbar (s : Site) : Option (Located Navbar) := s.placed "navbar" s.navbar (·.navbar)

def placedFooter (s : Site) : Option (Located Footer) := s.placed "footer" s.footer (·.footer)

def placedPrism (s : Site) : Option (Located Prism) := s.placed "prism" s.prism (·.prism)

def activeNavbar (s : Site) : Option Navbar := s.placedNavbar.map (·.what)

def activeFooter (s : Site) : Option Footer := s.placedFooter.map (·.what)

def activePrism (s : Site) : Option Prism := s.placedPrism.map (·.what)

def navbarLinks (s : Site) : List Link := s.activeNavbar.elim [] Navbar.links

def footerSections (s : Site) : List FooterSection := s.activeFooter.elim [] Footer.sections

def presetList (s : Site) : List Preset := s.presets.getD []

/-- The first sidebar that a preset names. -/
def sidebarPath? (s : Site) : Option String := s.presetList.findSome? Preset.sidebarPath?

/-- The stylesheets of all presets. -/
def stylesheets (s : Site) : List String := s.presetList.flatMap Preset.stylesheets

/-- How many links, sections and presets there are, as in `1 navbar link, 0 footer sections,
2 presets`. -/
def summary (s : Site) : String :=
  counted s.navbarLinks.length "navbar link" ++ ", " ++
    counted s.footerSections.length "footer section" ++ ", " ++
    counted s.presetList.length "preset"

end Site

end SiteManifest
