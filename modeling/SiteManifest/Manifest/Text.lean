import SiteManifest.Files.Tree
import SiteManifest.Manifest.Format
import SiteManifest.Site.Load

/-!
# The text of a manifest

A site is read from a text and written as one. Reading a text gives the site with the warnings
about it, or the reason why there is none; files and their references can fail in other ways.
-/
namespace SiteManifest

/-- Why a manifest could not be read, checked or written. -/
inductive Failure where
  | unreadable (path : Path) (cause : OsError)
  | malformed (path : Path) (message : String)
  /-- The manifest has the wrong shape, or its checks found errors. -/
  | invalid (diagnostics : Diagnostics)
  /-- Files that the manifest names are missing. -/
  | unresolved (diagnostics : Diagnostics)
  | unwritable (message : String)
  deriving DecidableEq, Repr

namespace Failure

def message : Failure → String
  | .unreadable path _ => "IO error when reading \x60" ++ path.text ++ "\x60"
  | .malformed path message => "failed to parse \x60" ++ path.text ++ "\x60: " ++ message
  | .invalid diagnostics | .unresolved diagnostics => diagnostics.display
  | .unwritable message => "failed to render config: " ++ message

/-- What is behind a failure and not part of its message. -/
def cause? : Failure → Option String
  | .unreadable _ cause => some cause.message
  | _ => none

def diagnostics? : Failure → Option Diagnostics
  | .invalid diagnostics | .unresolved diagnostics => some diagnostics
  | _ => none

end Failure

/-- The site that a text holds. The path is where the text came from. -/
def Site.ofText (path : Path) (format : Format) (text : String) :
    Except Failure (Site × Diagnostics) :=
  match format.parse text with
  | .error e => .error (.malformed path e.message)
  | .ok raw => (load raw).mapError .invalid

/-- What stands for the path of a text that is in no file. -/
def textPath : Path := ⟨"<string>"⟩

/-- The text of a site. -/
def Site.render (s : Site) (format : Format) : Except Failure String :=
  (format.render s.toJson).mapError fun fault => .unwritable fault.message

end SiteManifest
