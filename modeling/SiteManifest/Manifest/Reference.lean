import SiteManifest.Files.System
import SiteManifest.Site.Check

/-!
# References to files

A manifest names files of the site: images in the static directory, sidebars and stylesheets in the
directory of the manifest. Everything here looks at files through a function that tells what stands
at a path.
-/
namespace SiteManifest

inductive Base where
  | static
  | site
  deriving DecidableEq, Repr

/-- A file as the manifest names it, and the directory that it is looked up in. -/
structure Reference where
  text : String
  base : Base
  deriving DecidableEq, Repr

def Site.staticDirectory : Path := ⟨"static"⟩

namespace Reference

/-- A text without the slashes at its start. -/
def withoutSlashes (s : String) : String := String.ofList (s.toList.dropWhile (· == '/'))

/-- A text without one dot and slash at its start. -/
def withoutDot (s : String) : String :=
  match s.toList with
  | '.' :: '/' :: rest => String.ofList rest
  | _ => s

/-- The path of a reference in a directory. An absolute path that is there stays what it is; any
other slash at the start means the directory. -/
def resolve (kind : Path → Option Kind) (text : String) (base : Path) : Path :=
  if (Path.mk text).isAbsolute && (kind ⟨text⟩).isSome then ⟨text⟩
  else base.join ⟨withoutDot (withoutSlashes text)⟩

def directory (r : Reference) (root static : Path) : Path :=
  match r.base with
  | .static => root.join static
  | .site => root

def path (r : Reference) (kind : Path → Option Kind) (root static : Path) : Path :=
  resolve kind r.text (r.directory root static)

/-- Whether the file has to be there, and is not. URLs are never looked up. -/
def isMissing (r : Reference) (kind : Path → Option Kind) (root static : Path) : Bool :=
  !isExternal r.text && kind (r.path kind root static) ≠ some .file

/-- The paths that have to be looked up to know whether the file is there. -/
def lookedUp (r : Reference) (root static : Path) : List Path :=
  [⟨r.text⟩, (r.directory root static).join ⟨withoutDot (withoutSlashes r.text)⟩]

end Reference

namespace Site

/-- A navbar's images, counted from the site. -/
def navbarImages (s : Site) : List (Located String) :=
  s.placedNavbar.elim [] fun navbar =>
    navbar.what.images.map fun image => ⟨navbar.steps ++ image.steps, image.what⟩

/-- Every file that the manifest names. -/
def references (s : Site) : List (Located Reference) :=
  let images :=
    (s.favicon.map fun icon => ⟨[.key "favicon"], icon⟩).toList ++ s.navbarImages
  images.map (Located.map (⟨·, .static⟩)) ++
    (Located.below (.key "presets") (Located.each Preset.files 0 s.presetList)).map
      (Located.map (⟨·, .site⟩))

/-- The paths that have to be looked up to check all references. -/
def lookedUp (s : Site) (root static : Path) : List Path :=
  s.references.flatMap (·.what.lookedUp root static)

/-- One finding for every file that is missing. -/
def missingFiles (s : Site) (kind : Path → Option Kind) (root static : Path) : List Finding :=
  (s.references.filter (·.what.isMissing kind root static)).map (Located.map fun r =>
    .missingFile r.text (r.path kind root static).text)

end Site

end SiteManifest
