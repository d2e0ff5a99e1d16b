import SiteManifest.Shape.Basic
import SiteManifest.Site.Issue

/-!
# Prism

Names of the themes that colour code samples. Names outside the bundled set are taken with a
warning.
-/
namespace SiteManifest

open Text

structure Prism where
  theme : String
  darkTheme : Option String
  deriving DecidableEq, Repr

namespace Prism

def fields := Fields.required "theme" .text <| .optional "darkTheme" .text .done

def shape : Shape Prism := .record "PrismConfig" fields
  { pack := fun (theme, darkTheme, ()) => ⟨theme, darkTheme⟩
    unpack := fun p => (p.theme, p.darkTheme, ()) }

def bundledThemes : List String :=
  ["dracula", "duotoneDark", "duotoneLight", "github", "nightOwl", "nightOwlLight", "oceanicNext",
    "okaidia", "palenight", "shadesOfPurple", "synthwave84", "ultramin", "vsDark", "vsLight"]

/-- The theme of the dark colour mode, the other one if none is set. -/
def dark (p : Prism) : String := p.darkTheme.getD p.theme

def checkName (name : String) : List Finding :=
  if IsBlank name then [.here (.blank .themeName)]
  else if name ∈ bundledThemes then []
  else [.here (.unbundledTheme name)]

def check (p : Prism) : List Finding :=
  Located.below (.key "theme") (checkName p.theme) ++
    Located.below (.key "darkTheme") (p.darkTheme.elim [] checkName)

end Prism

end SiteManifest
