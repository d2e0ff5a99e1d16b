import SiteManifest.Command.Outcome
import SiteManifest.Manifest.File

/-!
# Checking a manifest and writing it out

The log of a check says in one line that a manifest is valid and what it holds; a verbose one also
says where it was found and which files it names. A manifest is written out in either format.
-/
namespace SiteManifest

structure CheckOptions where
  checkReferences : Bool
  verbose : Bool
  deriving DecidableEq, Repr

def CheckOptions.load (options : CheckOptions) : LoadOptions :=
  ⟨options.checkReferences, Site.staticDirectory⟩

namespace Check

/-- The file name of a path, or all of it if it has none. -/
def shownName (path : Path) : String := path.fileName?.getD path.text

/-- The details of a verbose log. -/
def details (manifest : Manifest) (options : CheckOptions) : String :=
  let site := manifest.site
  let lines :=
    ["site root " ++ manifest.root.text] ++
      ((site.activeNavbar.bind Navbar.title?).map ("navbar title " ++ ·)).toList ++
      (site.sidebarPath?.map ("sidebar " ++ ·)).toList ++
      site.stylesheets.map ("stylesheet " ++ ·) ++
      if options.checkReferences then [] else ["file references not checked"]
  String.join (lines.map (Log.line "check"))

def verdict (path : Path) (manifest : Manifest) : String :=
  Log.line "check" (shownName path ++ " is valid: " ++ manifest.site.summary)

/-- The log of a check that has read a file. -/
def log (path : Path) (options : CheckOptions) (opening : Opening) : String :=
  (if options.verbose then Log.line "config" ("reading " ++ path.text) else "") ++
    Log.warnings opening.warnings ++
    match opening.result with
    | .error _ => ""
    | .ok manifest =>
      (if options.verbose then details manifest options else "") ++ verdict path manifest

variable {m : Type → Type} [Monad m] [Disk m]

def run (path : Path) (options : CheckOptions) : m (Outcome Unit) := do
  let opening ← Manifest.read path options.load
  pure ⟨log path options opening, (opening.result.map fun _ => ()).mapError .manifest⟩

end Check

namespace Dump

variable {m : Type → Type} [Monad m] [Disk m]

/-- The text of the manifest in a file, in either format. -/
def run (path : Path) (format : Format) (checkReferences : Bool) : m (Outcome String) := do
  let opening ← Manifest.read path ⟨checkReferences, Site.staticDirectory⟩
  let text := opening.result.bind fun manifest => manifest.site.render format
  pure ⟨Log.warnings opening.warnings, text.mapError .manifest⟩

end Dump

end SiteManifest
