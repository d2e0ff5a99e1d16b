import SiteManifest.Proofs.Command.Init

/-!
# Starting a site that fails

Directories are made before the manifest is rendered and written, and nothing takes them away again.
So a first manifest that is not written can leave directories behind, and nothing but these: no file
is new, and nothing that was there is changed. Only if it is the writing of the file that fails, the
file can be there too, with a part of the text in it.

## Main statements

* `Init.opens_of_failed`: what is left behind when a first manifest is not written.
* `Init.directories_left_behind`: a directory can be.
-/
namespace SiteManifest.Init

variable {fs after : FileSystem} {root : Path} {s : Site} {format : Format} {e : CommandError}

/-- If it fails, a manifest was found and nothing was done, or directories were made and no more, or
the file was all that could not be written. -/
theorem Ends.of_error (h : Ends fs root s format (.error e) after) :
    (∃ path, e = .alreadyThere path) ∧ after = fs ∨
      ((∀ path, e ≠ .alreadyThere path) ∧ ∀ path cause, e ≠ .notWritten path cause) ∧
        (∃ result, Prepares fs root after result) ∨
      ∃ cause made text, e = .notWritten (manifestPath root format) cause ∧
        Prepares fs root made (.ok ()) ∧ s.render format = .ok text ∧
        made.write (manifestPath root format) text = (after, .error cause) := by
  cases h with
  | alreadyThere => exact .inl ⟨⟨_, rfl⟩, rfl⟩
  | notCreated h => exact .inr (.inl ⟨⟨nofun, nofun⟩, _, h⟩)
  | notRendered h render => exact .inr (.inl ⟨⟨nofun, nofun⟩, _, h⟩)
  | notWritten h render write => exact .inr (.inr ⟨_, _, _, rfl, h, render, write⟩)

/-- A first manifest that is not written, because there is one, its directory cannot be made or the
site cannot be rendered, leaves everything as it was, except that directories on the way to its own
one may be new. Nothing is new if a manifest was there already, or if the directory was. If all went
well up to the file itself, that is the one place where something else can have changed: it may be
new or emptied, and holds as much of the text as the disk took. -/
theorem opens_of_failed (fs : FileSystem) (root : Path) (s : Site) (format : Format)
    (e : CommandError) (after : FileSystem)
    (failed : (write (m := StateM FileSystem) root s format).run fs = (.error e, after)) :
    ((∀ path cause, e ≠ .notWritten path cause) →
      fs.Opens (directories root) after ∧
      (∀ path, e = .alreadyThere path → after = fs) ∧
      (∀ place, fs.resolve root = .ok place → fs.tree.entry place = some .directory →
        after = fs) ∧
      ((∀ path, e ≠ .alreadyThere path) → after = (fs.createDirectories root).1)) ∧
    ∀ path cause, e = .notWritten path cause →
      ∃ made text, fs.createDirectories root = (made, .ok ()) ∧
        fs.Opens (directories root) made ∧ s.render format = .ok text ∧
        path = manifestPath root format ∧ made.LeavesPart path text after := by
  rcases (ends_of_run failed).of_error with
    ⟨⟨path, rfl⟩, rfl⟩ | ⟨⟨free, written⟩, result, prepares⟩ |
      ⟨cause, made, text, rfl, h, render, put⟩
  · exact ⟨fun _ => ⟨.refl after _, fun _ _ => rfl, fun _ _ _ => rfl,
      fun other => absurd rfl (other path)⟩, nofun⟩
  · refine ⟨fun _ => ⟨prepares.opens, fun path same => absurd same (free path),
      fun place leads directory => ?_, fun _ => by rw [prepares.create]⟩,
      fun path cause same => absurd same (written path cause)⟩
    have create := prepares.create
    rw [FileSystem.createDirectories_of_resolve leads directory] at create
    exact (congrArg Prod.fst create).symm
  · refine ⟨fun other => absurd rfl (other _ cause), fun path other same => ?_⟩
    obtain ⟨rfl, rfl⟩ := CommandError.notWritten.inj same
    exact ⟨made, text, h.create, h.opens, render, rfl, FileSystem.leavesPart_of_write put⟩

/-- The same disk with no room for any content. -/
def fullDisk : FileSystem :=
  { oneManifest with
    limits := ⟨fun _ => none, fun _ _ => some (0, .other "No space left on device (os error 28)")⟩ }

/-- A file in the way of the directory, behind one that is missing; a directory with a manifest; and
a disk that is full. -/
theorem oneManifest_opens_of_failed :
    (∃ after, (write (m := StateM FileSystem) ⟨"new/../docsite.toml"⟩ (starter ⟨"docs"⟩) .toml).run
        oneManifest = (.error (.notCreated ⟨"new/../docsite.toml"⟩ .alreadyExists), after) ∧
      oneManifest.Opens (directories ⟨"new/../docsite.toml"⟩) after) ∧
    (∃ after, (write (m := StateM FileSystem) ⟨"sub/.."⟩ (starter ⟨"docs"⟩) .json).run oneManifest =
        (.error (.alreadyThere ⟨"sub/../docsite.toml"⟩), after) ∧ after = oneManifest) ∧
    ∃ made text, fullDisk.createDirectories ⟨"sub"⟩ = (made, .ok ()) ∧
      made.LeavesPart ⟨"sub/docsite.json"⟩ text
        ((write (m := StateM FileSystem) ⟨"sub"⟩ (starter ⟨"docs"⟩) .json).run fullDisk).2 := by
  have blocked : ((write (m := StateM FileSystem) ⟨"new/../docsite.toml"⟩ (starter ⟨"docs"⟩)
      .toml).run oneManifest).1 =
      .error (.notCreated ⟨"new/../docsite.toml"⟩ .alreadyExists) := by decide +kernel
  have taken : ((write (m := StateM FileSystem) ⟨"sub/.."⟩ (starter ⟨"docs"⟩) .json).run
      oneManifest).1 = .error (.alreadyThere ⟨"sub/../docsite.toml"⟩) := by decide +kernel
  have full : ((write (m := StateM FileSystem) ⟨"sub"⟩ (starter ⟨"docs"⟩) .json).run fullDisk).1 =
      .error (.notWritten ⟨"sub/docsite.json"⟩
        (.other "No space left on device (os error 28)")) := by
    decide +kernel
  obtain ⟨opens, _⟩ := (opens_of_failed _ _ _ _ _ _ (Prod.ext blocked rfl)).1 nofun
  obtain ⟨_, same, _⟩ := (opens_of_failed _ _ _ _ _ _ (Prod.ext taken rfl)).1 nofun
  obtain ⟨made, text, create, _, _, _, part⟩ :=
    (opens_of_failed _ _ _ _ _ _ (Prod.ext full rfl)).2 _ _ rfl
  exact ⟨⟨_, Prod.ext blocked rfl, opens⟩, ⟨_, Prod.ext taken rfl, same _ rfl⟩,
    made, text, create, part⟩

/-- A starter with an option that has no value, which one of the formats cannot express. -/
def nullStarter : Site :=
  { starter ⟨"docs"⟩ with presets := some [.configured "classic" [("blog", .null)]] }

/-- A directory that was made stays if a file is in the way behind it, and if the site cannot be
rendered. On a disk that is full an empty manifest is left. -/
theorem directories_left_behind :
    (oneManifest.tree.entry ["new"] = none ∧
      ((write (m := StateM FileSystem) ⟨"new/../docsite.toml"⟩ (starter ⟨"docs"⟩) .toml).run
        oneManifest).1 = .error (.notCreated ⟨"new/../docsite.toml"⟩ .alreadyExists) ∧
      ((write (m := StateM FileSystem) ⟨"new/../docsite.toml"⟩ (starter ⟨"docs"⟩) .toml).run
        oneManifest).2.tree.entry ["new"] = some .directory) ∧
    (((write (m := StateM FileSystem) ⟨"new"⟩ nullStarter .toml).run oneManifest).1 =
        .error (.manifest (.unwritable "unsupported unit type")) ∧
      ((write (m := StateM FileSystem) ⟨"new"⟩ nullStarter .toml).run oneManifest).2.tree.entry
        ["new"] = some .directory) ∧
    fullDisk.tree.entry ["docsite.json", "sub"] = none ∧
      ((write (m := StateM FileSystem) ⟨"sub"⟩ (starter ⟨"docs"⟩) .json).run fullDisk).1 =
        .error (.notWritten ⟨"sub/docsite.json"⟩
          (.other "No space left on device (os error 28)")) ∧
      ((write (m := StateM FileSystem) ⟨"sub"⟩ (starter ⟨"docs"⟩) .json).run fullDisk).2.tree.entry
        ["docsite.json", "sub"] = some (.file .empty) := by
  decide +kernel

end SiteManifest.Init
