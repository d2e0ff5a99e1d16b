import SiteManifest.Command.Check
import SiteManifest.Proofs.Site.Layouts

/-!
# Reading manifest files

Reading a manifest only looks at the file system. So what comes of it is a function of the file
system, which follows the text of the file, the site in it, and the files that the site names.

## Main definitions

* `FileSystem.normalized`: the path that a path stands for.
* `FileSystem.opening`: what comes of reading a manifest.

## Main statements

* `Manifest.run_read`, `Check.run_run`: a manifest is read and checked without a change.
-/
namespace SiteManifest

/-- What comes first is done first, and what comes next is done in what it leaves. -/
theorem FileSystem.run_bind {first : StateM FileSystem α} {next : α → StateM FileSystem β} {a : α}
    {fs after : FileSystem} (h : first.run fs = (a, after)) :
    (first >>= next).run fs = (next a).run after := by
  rw [StateT.run_bind, h]
  rfl

/-- The absolute path of what a path leads to, or of the path itself. -/
def FileSystem.normalized (fs : FileSystem) (p : Path) : Path :=
  (fs.canonical? p).getD (if p.isAbsolute then p else fs.currentDirectory.join p)

theorem Path.run_normalize (p : Path) (fs : FileSystem) :
    (p.normalize (m := StateM FileSystem)).run fs = (fs.normalized p, fs) := by
  have canonical : (Disk.canonical? p : StateM FileSystem (Option Path)).run fs =
      (fs.canonical? p, fs) := rfl
  unfold normalize
  rw [FileSystem.run_bind canonical, FileSystem.normalized]
  cases fs.canonical? p with
  | some q => rfl
  | none =>
    cases p.isAbsolute with
    | true => rfl
    | false => rfl

/-- The answer to a search for the files of a site, if there is one. -/
def FileSystem.answer (fs : FileSystem) (s : Site) (base : Path) (options : LoadOptions) :
    Except Failure Unit :=
  if options.checkReferences then
    missingAnswer ((s.missingFiles fs.kind? base options.static).map (Finding.diagnostic .root))
  else .ok ()

/-- A site of which no file is missing is placed in the directory of its manifest. -/
theorem Site.run_place (s : Site) (path : Path) (options : LoadOptions) (fs : FileSystem) :
    (s.place (m := StateM FileSystem) path options).run fs =
      ((fs.answer s (fs.normalized path.directory) options).map fun _ =>
        ⟨fs.normalized path.directory, s⟩, fs) := by
  unfold place FileSystem.answer
  rw [FileSystem.run_bind (path.directory.run_normalize fs)]
  cases options.checkReferences with
  | false => rfl
  | true =>
    simp only [if_true]
    rw [FileSystem.run_bind (s.checkReferences_eq _ _ fs)]
    cases missingAnswer _ with
    | ok => rfl
    | error e => rfl

/-- What comes of reading a manifest. -/
def FileSystem.opening (fs : FileSystem) (path : Path) (options : LoadOptions) : Opening :=
  match fs.read path with
  | .error e => ⟨[], .error (.unreadable path e)⟩
  | .ok text =>
    match Site.ofText path (.ofPath path) text with
    | .error e => ⟨[], .error e⟩
    | .ok (site, diagnostics) =>
      ⟨diagnostics.warnings,
        (fs.answer site (fs.normalized path.directory) options).map fun _ =>
          ⟨fs.normalized path.directory, site⟩⟩

theorem Manifest.run_read (path : Path) (options : LoadOptions) (fs : FileSystem) :
    (Manifest.read (m := StateM FileSystem) path options).run fs =
      (fs.opening path options, fs) := by
  have answer : (Disk.read path : StateM FileSystem (Except OsError String)).run fs =
      (fs.read path, fs) := rfl
  unfold Manifest.read FileSystem.opening
  rw [FileSystem.run_bind answer]
  cases fs.read path with
  | error e => rfl
  | ok text =>
    simp only
    cases Site.ofText path (.ofPath path) text with
    | error e => rfl
    | ok loaded => exact FileSystem.run_bind (loaded.1.run_place path options fs)

theorem Check.run_run (path : Path) (options : CheckOptions) (fs : FileSystem) :
    (Check.run (m := StateM FileSystem) path options).run fs =
      (⟨log path options (fs.opening path options.load),
        ((fs.opening path options.load).result.map fun _ => ()).mapError .manifest⟩, fs) := by
  exact FileSystem.run_bind (Manifest.run_read path options.load fs)

end SiteManifest
