import SiteManifest.Command.Outcome
import SiteManifest.Manifest.File
import SiteManifest.Text.Uppercase

/-!
# Starting a site

The first manifest of a site is written into its directory, which is made if it is missing. A
manifest that is there already, in either format, is left alone.
-/
namespace SiteManifest.Init

open Text

/-- The URL of a site until it has one of its own. -/
def starterUrl : String := "https://example.com"

/-- The title of a new site, after the name of its directory. -/
def title (root : Path) : String :=
  match root.fileName? with
  | none | some "" => "My Docs"
  | some name => capitalized name

def starter (root : Path) : Site := .starter (title root) starterUrl

/-- The paths of manifests in a directory. -/
def manifests (root : Path) : List Path :=
  [root.join ⟨Format.toml.fileName⟩, root.join ⟨Format.json.fileName⟩]

variable {m : Type → Type} [Monad m] [Disk m]

/-- Writes a manifest into a directory that is there. -/
def writeText (s : Site) (format : Format) (path : Path) : m (Except CommandError Path) :=
  match s.render format with
  | .error e => pure (.error (.manifest e))
  | .ok text => do
    match ← Disk.write path text with
    | .error e => pure (.error (.notWritten path e))
    | .ok () => pure (.ok path)

/-- Writes a manifest into a directory, unless there is one. -/
def write (root : Path) (s : Site) (format : Format) : m (Except CommandError Path) := do
  let kind ← Disk.kinds (manifests root)
  match (manifests root).find? fun p => (kind p).isSome with
  | some path => pure (.error (.alreadyThere path))
  | none => do
    match ← Disk.createDirectories root with
    | .error e => pure (.error (.notCreated root e))
    | .ok () => writeText s format (root.join ⟨format.fileName⟩)

/-- The directory of a new site. -/
def rootOf (name : Option Path) : m Path := do
  let directory ← Disk.currentDirectory
  pure (name.elim directory directory.join)

/-- Starts a site, or only gives the text of its manifest in a dry run. -/
def run (name : Option Path) (dry : Bool) (format : Format) : m (Outcome String) := do
  let root ← rootOf name
  if dry then pure (.quiet ((starter root).render format |>.mapError .manifest))
  else do
    match ← write root (starter root) format with
    | .error e => pure (.quiet (.error e))
    | .ok path => pure ⟨Log.line "init" ("wrote " ++ path.text), .ok ""⟩

end SiteManifest.Init
