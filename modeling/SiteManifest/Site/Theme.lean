import SiteManifest.Site.Footer
import SiteManifest.Site.Navbar
import SiteManifest.Site.Prism

/-!
# Theme table

The nested layout of a manifest keeps the sections of the theme in a table of their own.
-/
namespace SiteManifest

structure Theme where
  hideOnScroll : Option Bool
  prism : Option Prism
  navbar : Option Navbar
  footer : Option Footer
  deriving DecidableEq, Repr

namespace Theme

def fields := Fields.optional "hideOnScroll" .flag <| .optional "prism" Prism.shape <|
  .optional "navbar" Navbar.shape <| .optional "footer" Footer.shape .done

def shape : Shape Theme := .record "ThemeConfig" fields
  { pack := fun (hideOnScroll, prism, navbar, footer, ()) =>
      ⟨hideOnScroll, prism, navbar, footer⟩
    unpack := fun t => (t.hideOnScroll, t.prism, t.navbar, t.footer, ()) }

def check (t : Theme) : List Finding :=
  Located.below (.key "prism") (t.prism.elim [] Prism.check) ++
    Located.below (.key "navbar") (t.navbar.elim [] Navbar.check) ++
    Located.below (.key "footer") (t.footer.elim [] Footer.check)

end Theme

end SiteManifest
