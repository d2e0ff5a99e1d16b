import SiteManifest.Proofs.Files.Growth

/-!
# Writing files

A file that is written stands where its path leads: its last name, in the directory that the other
names lead to. However writing it ends, nothing else changes. If it ends well, what is read from the
path next is what was written, unless a device stands there, which takes everything and keeps
nothing.

## Main definitions

* `FileSystem.Writes`: how writing a file can end.
* `FileSystem.LeavesPart`: a part of a text is in a file, and all else is as it was.

## Main statements

* `FileSystem.writes_write`: it ends in one of these ways.
* `FileSystem.Writes.eq_or_putFile`: at most the file has changed.
* `FileSystem.write_of_slot`: when all of a file is written.
* `FileSystem.read_of_write`: what was written is read.
* `FileSystem.entry_eq_none_of_kind?`: a path at which there is nothing.
-/
namespace SiteManifest.FileSystem

variable {fs after : FileSystem} {p : Path} {name text : String} {place : Location}
  {slot : fs.tree.Slot} {result : Except OsError Unit}

/-- A path that leads somewhere is not refused as such. -/
theorem resolve_eq_ok_iff :
    fs.resolve p = .ok place ↔ pathError? p = none ∧
      fs.tree.walk (fs.start p) (p.names ++ if endsInSlash p then ["."] else []) = .ok place := by
  unfold resolve
  cases pathError? p <;> simp

/-- The names of a path lead where it leads, with or without a slash behind them. -/
theorem walk_of_resolve (leads : fs.resolve p = .ok place) :
    fs.tree.walk (fs.start p) p.names = .ok place := by
  obtain ⟨_, ok⟩ := resolve_eq_ok_iff.1 leads
  rw [FileTree.walk_append] at ok
  cases walked : fs.tree.walk (fs.start p) p.names with
  | error e => simp [walked, Except.bind] at ok
  | ok l =>
    rw [walked, Except.bind] at ok
    split at ok
    · obtain ⟨next, step, same⟩ := FileTree.walk_cons_eq_ok_iff.1 ok
      unfold FileTree.step? at step
      grind [FileTree.walk]
    · exact ok

theorem container_eq_ok_iff :
    fs.container p = .ok place ↔
      pathError? p = none ∧ fs.tree.walk (fs.start p) p.names.dropLast = .ok place := by
  unfold container
  cases pathError? p <;> simp

/-- A file of a path stands in the directory that the path leads through last. -/
theorem slot_eq_ok_iff :
    fs.slot p = .ok slot ↔ fs.container p = .ok slot.directory ∧
      p.names.getLast? = some slot.name ∧ endsInSlash p = false ∧ FileTree.CanName slot.name := by
  unfold FileSystem.slot
  constructor
  · intro h
    split at h
    · contradiction
    · contradiction
    next place name way last =>
      split at h
      next inside =>
        split at h
        · contradiction
        next plain =>
          split at h
          · contradiction
          next short =>
            split at h
            · contradiction
            next free =>
              obtain rfl := Except.ok.inj h
              simp only [Bool.or_eq_true, decide_eq_true_eq, not_or, Bool.not_eq_true] at plain
              exact ⟨way, last, plain.2, plain.1.1, plain.1.2, Nat.le_of_not_lt short⟩
      next => contradiction
  · rintro ⟨way, last, noSlash, noDot, noDots, short⟩
    rw [way, last]
    simp only
    rw [dif_pos slot.inside, if_neg (by simp [noDot, noDots, noSlash]),
      if_neg (Nat.not_lt.2 short), dif_neg slot.free]

/-! ## How it ends -/

/-- How writing a file can end: with which answer, and what there is then. -/
inductive Writes (fs : FileSystem) (p : Path) (content : ByteArray) :
    FileSystem → Except OsError Unit → Prop
  | refused {e : OsError} : Writes fs p content fs (.error e)
  | passed {slot : fs.tree.Slot} {device : Device} {result : Except OsError Unit}
    (led : fs.slot p = .ok slot) (special : fs.tree.entry slot.place = some (.special device)) :
    Writes fs p content fs result
  | stopped {slot : fs.tree.Slot} {e : OsError} (n : Nat) (led : fs.slot p = .ok slot) :
    Writes fs p content (fs.putFile slot (content.extract 0 n)) (.error e)
  | done {slot : fs.tree.Slot} (led : fs.slot p = .ok slot) :
    Writes fs p content (fs.putFile slot content) (.ok ())

theorem writes_writeBytes (fs : FileSystem) (p : Path) (content : ByteArray) :
    Writes fs p content (fs.writeBytes p content).1 (fs.writeBytes p content).2 := by
  unfold writeBytes
  split
  · exact .refused
  next slot led =>
    split
    · exact .refused
    next special => exact .passed led special
    next =>
      split
      next n _ _ => exact .stopped n led
      next => exact .done led

theorem writes_write (h : fs.write p text = (after, result)) :
    Writes fs p text.toUTF8 after result := by
  have ends := writes_writeBytes fs p text.toUTF8
  rwa [show fs.writeBytes p text.toUTF8 = (after, result) from h] at ends

/-- Whatever comes of it, nothing but the file has changed, and that holds a part of what was
written. -/
theorem Writes.eq_or_putFile {content : ByteArray} (h : Writes fs p content after result) :
    after = fs ∨ ∃ slot n, fs.slot p = .ok slot ∧
      after = fs.putFile slot (content.extract 0 n) := by
  cases h with
  | refused => exact .inl rfl
  | passed => exact .inl rfl
  | stopped n led => exact .inr ⟨_, n, led, rfl⟩
  | done led => exact .inr ⟨_, content.size, led, by simp⟩

/-- Nothing has changed but the file of a path, which holds a part of a text now. -/
def LeavesPart (fs : FileSystem) (p : Path) (text : String) (after : FileSystem) : Prop :=
  ∀ place, after.tree.entry place = fs.tree.entry place ∨
    after.resolve p = .ok place ∧
      ∃ n, after.tree.entry place = some (.file (text.toUTF8.extract 0 n))

/-- All of a file is written where its disk takes it. -/
theorem write_of_slot (led : fs.slot p = .ok slot) (new : fs.tree.entry slot.place = none)
    (allowed : fs.limits = .none) : fs.write p text = (fs.putFile slot text.toUTF8, .ok ()) := by
  rw [write, writeBytes, led]
  simp only [allowed, Limits.none, new]

theorem names_eq_of_getLast? (last : p.names.getLast? = some name) :
    p.names = p.names.dropLast ++ [name] := by
  obtain ⟨front, split⟩ := List.getLast?_eq_some_iff.1 last
  rw [split, List.dropLast_concat]

/-- A path that ends in a name leads to that name in its directory. -/
theorem resolve_of_container (container : fs.container p = .ok place)
    (last : p.names.getLast? = some name) (noSlash : endsInSlash p = false) :
    fs.resolve p = fs.tree.walk place [name] := by
  obtain ⟨noError, ok⟩ := container_eq_ok_iff.1 container
  have names : p.names ++ (if endsInSlash p then ["."] else []) = p.names.dropLast ++ [name] := by
    rw [noSlash, ← names_eq_of_getLast? last]
    exact List.append_nil _
  rw [resolve, noError]
  simp only
  rw [names, FileTree.walk_append, ok, Except.bind]

/-- The text of a file is read from every path that leads to it. -/
theorem read_of_resolve (leads : fs.resolve p = .ok place)
    (file : fs.tree.entry place = some (.file text.toUTF8)) : fs.read p = .ok text := by
  rw [read, readBytes, leads]
  simp only
  rw [file]
  simp [String.fromUTF8?, text.isValidUTF8, String.fromUTF8]

/-- What stands at the place of a file is what its path leads to. -/
theorem resolve_of_slot (led : fs.slot p = .ok slot) (found : fs.tree.entry slot.place ≠ none) :
    fs.resolve p = .ok slot.place := by
  obtain ⟨way, last, noSlash, can⟩ := slot_eq_ok_iff.1 led
  rw [resolve_of_container way last noSlash]
  exact FileTree.walk_singleton can slot.inside found

theorem kind?_of_slot (led : fs.slot p = .ok slot) {entry : Entry}
    (found : fs.tree.entry slot.place = some entry) : fs.kind? p = some entry.kind := by
  rw [kind?, entry?, resolve_of_slot led (by simp [found])]
  simp only
  rw [found, Option.map_some]

/-- A file that was put somewhere is found there. -/
theorem resolve_putFile (led : fs.slot p = .ok slot) (content : ByteArray) :
    (fs.putFile slot content).resolve p = .ok slot.place := by
  obtain ⟨way, last, noSlash, can⟩ := slot_eq_ok_iff.1 led
  obtain ⟨noError, ok⟩ := container_eq_ok_iff.1 way
  have kept := FileTree.keepsPlaces_putFile slot content
  have way : (fs.putFile slot content).container p = .ok slot.directory :=
    container_eq_ok_iff.2 ⟨noError, FileTree.walk_of_keepsPlaces kept ok⟩
  have found : (fs.putFile slot content).tree.entry slot.place ≠ none := by simp [putFile]
  rw [resolve_of_container way last noSlash]
  exact FileTree.walk_singleton can (kept.directories _ slot.inside) found

theorem leavesPart_of_write (h : fs.write p text = (after, result)) :
    fs.LeavesPart p text after := by
  intro place
  rcases (writes_write h).eq_or_putFile with rfl | ⟨slot, n, led, rfl⟩
  · exact .inl rfl
  · by_cases here : place = slot.place
    · subst here
      exact .inr ⟨resolve_putFile led _, n, FileTree.entry_putFile_self slot _⟩
    · exact .inl (FileTree.entry_putFile_of_ne here)

/-- Whatever was written to a path is what is read from it, unless a device stands there. -/
theorem read_of_write (h : fs.write p text = (after, .ok ()))
    (plain : after.kind? p ≠ some .special) : after.read p = .ok text := by
  cases writes_write h with
  | passed led special => exact absurd (kind?_of_slot led special) plain
  | done led => exact read_of_resolve (resolve_putFile led _) (FileTree.entry_putFile_self _ _)

/-- Where looking up a name in a directory finds nothing, nothing is. -/
theorem entry_eq_none_of_kind? (nothing : fs.kind? p = none)
    (way : fs.container p = .ok place) (last : p.names.getLast? = some name)
    (noSlash : endsInSlash p = false) (can : FileTree.CanName name) :
    fs.tree.entry (name :: place) = none := by
  by_cases directory : fs.tree.entry place = some .directory
  · rw [kind?, Option.map_eq_none_iff, entry?, resolve_of_container way last noSlash] at nothing
    cases found : fs.tree.entry (name :: place) with
    | none => rfl
    | some e =>
      rw [FileTree.walk_singleton can directory (by simp [found])] at nothing
      exact found.symm.trans nothing
  · exact FileTree.entry_cons_eq_none directory

end SiteManifest.FileSystem
