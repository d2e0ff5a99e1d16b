import SiteManifest.Manifest.Reference
import SiteManifest.Manifest.Text

/-!
# Manifest files

Finding, reading and checking a manifest on a disk.
-/
namespace SiteManifest

/-- A site with the directory of its manifest. -/
structure Manifest where
  root : Path
  site : Site
  deriving DecidableEq, Repr

structure LoadOptions where
  checkReferences : Bool
  static : Path
  deriving DecidableEq, Repr

/-- What reading a file gives: warnings, which are there even if references fail later, and the
manifest. -/
structure Opening where
  warnings : List Diagnostic
  result : Except Failure Manifest

/-- Files of the name `*.json`, in any case, are JSON; all others are TOML. -/
def Format.ofPath (p : Path) : Format :=
  match p.extension? with
  | some extension => if extension.toList.map Char.toLower = "json".toList then .json else .toml
  | none => .toml

/-- The directory that a path is in, as it is written. -/
def Path.directory (p : Path) : Path :=
  match p.parent? with
  | some d => if d.text.isEmpty then ⟨"."⟩ else d
  | none => ⟨"."⟩

/-! ## Searching

A manifest is looked for in a directory and then in every directory around it. -/

namespace Search

/-- The paths that some names may have, from the nearest directory outwards. -/
def candidates (directory : Path) (names : List Path) : List Path :=
  directory.ancestors.flatMap fun d => names.map d.join

/-- The nearest file that has one of some names. An absolute name is taken or refused as it is. -/
def find? (kind : Path → Option Kind) (directory : Path) (names : List Path) : Option Path :=
  match names.find? Path.isAbsolute with
  | some p => if (kind p).isSome then some p else none
  | none => (candidates directory names).find? fun p => kind p = some .file

/-- The paths that have to be looked up to find a manifest. -/
def lookedUp (directory : Path) (names : List Path) : List Path :=
  names.filter Path.isAbsolute ++ candidates directory names

end Search

/-! ## On a disk -/

variable {m : Type → Type} [Monad m] [Disk m]

/-- The absolute path of what a path leads to, or of the path itself if it leads nowhere. -/
def Path.normalize (p : Path) : m Path := do
  match ← Disk.canonical? p with
  | some q => pure q
  | none => if p.isAbsolute then pure p else do pure ((← Disk.currentDirectory).join p)

/-- Refuses a site of which files are missing. -/
def Site.checkReferences (s : Site) (root static : Path) : m (Except Failure Unit) := do
  let kind ← Disk.kinds (s.lookedUp root static)
  match (Diagnostics.ofFindings .root (s.missingFiles kind root static)).toExcept with
  | .ok _ => pure (.ok ())
  | .error diagnostics => pure (.error (.unresolved diagnostics))

/-- A site from a file, with the directory of the file for its root. -/
def Site.place (s : Site) (path : Path) (options : LoadOptions) : m (Except Failure Manifest) := do
  let root ← path.directory.normalize
  if options.checkReferences then
    match ← s.checkReferences root options.static with
    | .ok () => pure (.ok ⟨root, s⟩)
    | .error e => pure (.error e)
  else pure (.ok ⟨root, s⟩)

/-- The manifest in a file. -/
def Manifest.read (path : Path) (options : LoadOptions) : m Opening := do
  match ← Disk.read path with
  | .error e => pure ⟨[], .error (.unreadable path e)⟩
  | .ok text =>
    match Site.ofText path (.ofPath path) text with
    | .error e => pure ⟨[], .error e⟩
    | .ok (site, diagnostics) => do
      pure ⟨diagnostics.warnings, ← site.place path options⟩

/-- The manifest that some names have, from the current directory outwards. -/
def Manifest.find? (names : List Path) : m (Option Path) := do
  let directory ← Disk.currentDirectory
  let kind ← Disk.kinds (Search.lookedUp directory names)
  pure (Search.find? kind directory names)

end SiteManifest
