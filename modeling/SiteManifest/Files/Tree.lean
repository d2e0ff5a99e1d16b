import SiteManifest.Files.OsError
import SiteManifest.Files.Path

/-!
# File trees

Files, directories and devices by their location. A tree always has its root, and whatever it holds
lies in a directory.
-/
namespace SiteManifest

/-- The names from the root to a place, the innermost one first. -/
abbrev Location := List String

/-- What is neither a file nor a directory, as a terminal, a pipe or a socket. Reading it gives some
bytes and writing to it leaves the disk as it is, unless it refuses the one or the other. -/
structure Device where
  content : ByteArray
  readError? : Option OsError
  writeError? : Option OsError

inductive Entry where
  | file (content : ByteArray)
  | directory
  | special (device : Device)

/-- Devices are equal if they give the same bytes and refuse the same. -/
instance : DecidableEq Device
  | ⟨⟨bytes⟩, readError, writeError⟩, ⟨⟨bytes'⟩, readError', writeError'⟩ =>
    if h : bytes = bytes' ∧ readError = readError' ∧ writeError = writeError' then
      isTrue (by obtain ⟨rfl, rfl, rfl⟩ := h; rfl)
    else isFalse fun same => h (by cases same; exact ⟨rfl, rfl, rfl⟩)

/-- Files are equal if their bytes are. -/
instance : DecidableEq Entry
  | .file ⟨bytes⟩, .file ⟨bytes'⟩ =>
    if h : bytes = bytes' then isTrue (h ▸ rfl)
    else isFalse fun same => h (congrArg ByteArray.data (Entry.file.inj same))
  | .directory, .directory => isTrue rfl
  | .special device, .special device' =>
    if h : device = device' then isTrue (h ▸ rfl)
    else isFalse fun same => h (Entry.special.inj same)
  | .file _, .directory | .file _, .special _ | .directory, .file _ | .directory, .special _
  | .special _, .file _ | .special _, .directory => isFalse nofun

structure FileTree where
  entry : Location → Option Entry
  root : entry [] = some .directory
  parent : ∀ name place, (entry (name :: place)).isSome → entry place = some .directory

namespace FileTree

variable {t : FileTree}

/-- The tree with one more entry, or another one, at a place. -/
def set (t : FileTree) (place : Location) (e : Option Entry) (l : Location) : Option Entry :=
  if l = place then e else t.entry l

@[simp] theorem set_self {place : Location} {e : Option Entry} : t.set place e place = e := by
  simp [set]

theorem set_of_ne {place l : Location} {e : Option Entry} (h : l ≠ place) :
    t.set place e l = t.entry l := by simp [set, h]

theorem ne_cons (name : String) (place : Location) : place ≠ name :: place := by
  intro h
  simpa using congrArg List.length h

/-- A new directory. -/
def addDirectory (t : FileTree) (name : String) (place : Location)
    (inside : t.entry place = some .directory) : FileTree where
  entry := t.set (name :: place) (some .directory)
  root := by rw [set_of_ne (by simp), t.root]
  parent child l h := by
    by_cases hl : l = name :: place
    · simp [hl]
    · rw [set_of_ne hl]
      by_cases hc : child :: l = name :: place
      · simp_all
      · rw [set_of_ne hc] at h
        exact t.parent child l h

/-- A place for a file: a name in a directory, which is not the name of a directory. -/
structure Slot (t : FileTree) where
  name : String
  directory : Location
  inside : t.entry directory = some .directory
  free : t.entry (name :: directory) ≠ some .directory

def Slot.place (slot : t.Slot) : Location := slot.name :: slot.directory

/-- A file with the given content, new or in the place of another one. -/
def putFile (t : FileTree) (slot : t.Slot) (content : ByteArray) : FileTree where
  entry := t.set slot.place (some (.file content))
  root := by rw [set_of_ne (by simp [Slot.place]), t.root]
  parent child l h := by
    by_cases hl : l = slot.place
    · subst hl
      rw [set_of_ne (ne_cons _ _).symm] at h
      exact absurd (t.parent child _ h) slot.free
    · rw [set_of_ne hl]
      by_cases hc : child :: l = slot.place
      · obtain ⟨-, rfl⟩ := List.cons.inj hc
        exact slot.inside
      · rw [set_of_ne hc] at h
        exact t.parent child l h

@[simp] theorem entry_putFile_self (slot : t.Slot) (content : ByteArray) :
    (t.putFile slot content).entry slot.place = some (.file content) := set_self

theorem entry_putFile_of_ne {slot : t.Slot} {content : ByteArray} {l : Location}
    (h : l ≠ slot.place) : (t.putFile slot content).entry l = t.entry l := set_of_ne h

/-- The tree without a file or a device. -/
def removeFile (t : FileTree) (slot : t.Slot) : FileTree where
  entry := t.set slot.place none
  root := by rw [set_of_ne (by simp [Slot.place]), t.root]
  parent child l h := by
    have hc : child :: l ≠ slot.place := by
      intro hc
      simp [hc] at h
    rw [set_of_ne hc] at h
    have := t.parent child l h
    rw [set_of_ne (by rintro rfl; exact slot.free this), this]

/-- The greatest number of bytes in a name. -/
def maxNameBytes : Nat := 255

/-- The names that something in a directory can have. -/
def CanName (name : String) : Prop :=
  name ≠ "." ∧ name ≠ ".." ∧ name.utf8ByteSize ≤ maxNameBytes

/-- The place that names lead to. Every one is looked up in a directory; dots stay there or lead
back, which at the root is the root. -/
def walk (t : FileTree) (place : Location) : List String → Except OsError Location
  | [] => .ok place
  | name :: rest =>
    if t.entry place ≠ some .directory then .error .notDirectory
    else if name = "." then t.walk place rest
    else if name = ".." then t.walk place.tail rest
    else if maxNameBytes < name.utf8ByteSize then .error .nameTooLong
    else if (t.entry (name :: place)).isNone then .error .notFound
    else t.walk (name :: place) rest

end FileTree

/-! ## Proper places -/

/-- A name that something on a disk can have. -/
structure ProperName (name : String) : Prop extends Path.IsName name where
  noNul : '\x00' ∉ name.toList
  can : FileTree.CanName name

/-- The names on the way to something on a disk. -/
def ProperPlace (place : Location) : Prop := ∀ name ∈ place, ProperName name

theorem properName_iff {name : String} :
    ProperName name ↔ (name ≠ "" ∧ '/' ∉ name.toList) ∧ '\x00' ∉ name.toList ∧
      name ≠ "." ∧ name ≠ ".." ∧ name.utf8ByteSize ≤ FileTree.maxNameBytes :=
  ⟨fun h => ⟨⟨h.nonempty, h.noSlash⟩, h.noNul, h.can⟩,
    fun ⟨⟨nonempty, noSlash⟩, noNul, can⟩ => ⟨⟨nonempty, noSlash⟩, noNul, can⟩⟩

instance : DecidablePred ProperName := fun _ => decidable_of_iff _ properName_iff.symm

instance : DecidablePred ProperPlace := fun place =>
  inferInstanceAs (Decidable (∀ name ∈ place, ProperName name))

theorem properPlace_nil : ProperPlace [] := by simp [ProperPlace]

theorem properPlace_cons_iff {name : String} {place : Location} :
    ProperPlace (name :: place) ↔ ProperName name ∧ ProperPlace place :=
  List.forall_mem_cons

/-- From a proper place names that can be spelled lead to a proper place. -/
theorem FileTree.properPlace_of_walk {t : FileTree} {place l : Location} {names : List String}
    (start : ProperPlace place)
    (spelled : ∀ name ∈ names, Path.IsName name ∧ '\x00' ∉ name.toList)
    (ok : t.walk place names = .ok l) : ProperPlace l := by
  induction names generalizing place with
  | nil =>
    obtain rfl := Except.ok.inj ok
    exact start
  | cons name names ih =>
    obtain ⟨⟨isName, noNul⟩, others⟩ := List.forall_mem_cons.1 spelled
    rw [walk] at ok
    split at ok
    · contradiction
    split at ok
    · exact ih start others ok
    split at ok
    · exact ih (fun other mem => start other (List.mem_of_mem_tail mem)) others ok
    split at ok
    · contradiction
    split at ok
    · contradiction
    next dot dots short _ =>
      have proper : ProperName name := ⟨isName, noNul, dot, dots, Nat.le_of_not_lt short⟩
      exact ih (properPlace_cons_iff.2 ⟨proper, start⟩) others ok

end SiteManifest
