import SiteManifest.Files.Tree

/-!
# File systems

A tree with a current directory, and what the usual operations do with paths in it: which of them
fail, with what error, and what has changed afterwards. Everything can be looked at. What may not be
made or written, and how much of a file can be, is up to the disk.
-/
namespace SiteManifest

inductive Kind where
  | file
  | directory
  | special
  deriving DecidableEq, Repr

def Entry.kind : Entry → Kind
  | .file _ => .file
  | .directory => .directory
  | .special _ => .special

/-- What a disk refuses though its tree would take it. -/
structure Limits where
  /-- Why nothing can be made or opened for writing at a place. -/
  refusal? : Location → Option OsError
  /-- How many bytes get into a file that does not take all of them, and why no more do. -/
  stop? : Location → ByteArray → Option (Nat × OsError)

/-- A disk with room for everything, on which everything is allowed. -/
def Limits.none : Limits := ⟨fun _ => .none, fun _ _ => .none⟩

structure FileSystem where
  tree : FileTree
  here : Location
  proper : ProperPlace here
  limits : Limits := .none

namespace FileSystem

/-- The same disk, seen from another directory. -/
def seenFrom (fs : FileSystem) (place : Location) (proper : ProperPlace place) : FileSystem :=
  { fs with here := place, proper := proper }

/-- The bytes that a path must stay below. -/
def maxPathBytes : Nat := 4096

/-- Why no file system takes a path, whatever it holds. -/
def pathError? (p : Path) : Option OsError :=
  if '\x00' ∈ p.chars then some .nulInPath
  else if p.text.isEmpty then some .notFound
  else if maxPathBytes ≤ p.text.utf8ByteSize then some .nameTooLong
  else none

def start (fs : FileSystem) (p : Path) : Location := if p.isAbsolute then [] else fs.here

/-- Whether a path asks for a directory by a slash at its end. -/
def endsInSlash (p : Path) : Bool := p.chars.getLast? = some '/'

/-- The place of a path. A slash at its end counts as a dot behind it. -/
def resolve (fs : FileSystem) (p : Path) : Except OsError Location :=
  match pathError? p with
  | some e => .error e
  | none => fs.tree.walk (fs.start p) (p.names ++ if endsInSlash p then ["."] else [])

/-- What a path leads to can be spelled. -/
theorem properPlace_of_resolve {fs : FileSystem} {p : Path} {place : Location}
    (leads : fs.resolve p = .ok place) : ProperPlace place := by
  unfold resolve at leads
  split at leads
  · contradiction
  next noError =>
    have noNul : '\x00' ∉ p.chars := by
      intro nul
      simp [pathError?, nul] at noError
    have start : ProperPlace (fs.start p) := by
      unfold start
      split
      · exact properPlace_nil
      · exact fs.proper
    refine FileTree.properPlace_of_walk start (fun name mem => ?_) leads
    rcases List.mem_append.1 mem with mem | dot
    · exact ⟨Path.isName_of_mem_names mem,
        fun nul => noNul (Path.mem_chars_of_mem_names mem nul)⟩
    · obtain rfl : name = "." := by
        split at dot <;> simp_all
      exact ⟨⟨by decide, by decide⟩, by decide⟩

def entry? (fs : FileSystem) (p : Path) : Option Entry :=
  match fs.resolve p with
  | .ok place => fs.tree.entry place
  | .error _ => none

/-- What stands at a path, nothing if the path leads nowhere. -/
def kind? (fs : FileSystem) (p : Path) : Option Kind := (fs.entry? p).map Entry.kind

/-- The absolute path of a place. -/
def pathOf (place : Location) : Path := .ofComponents true place.reverse

def currentDirectory (fs : FileSystem) : Path := pathOf fs.here

/-- The absolute path, without dots, of something that is there. -/
def canonical? (fs : FileSystem) (p : Path) : Option Path :=
  match fs.resolve p with
  | .ok place => if (fs.tree.entry place).isSome then some (pathOf place) else none
  | .error _ => none

def changeDirectory? (fs : FileSystem) (p : Path) : Option FileSystem :=
  match leads : fs.resolve p with
  | .ok place =>
    if fs.tree.entry place = some .directory then
      some (fs.seenFrom place (properPlace_of_resolve leads))
    else none
  | .error _ => none

def readBytes (fs : FileSystem) (p : Path) : Except OsError ByteArray :=
  match fs.resolve p with
  | .error e => .error e
  | .ok place =>
    match fs.tree.entry place with
    | none => .error .notFound
    | some .directory => .error .isDirectory
    | some (.file content) => .ok content
    | some (.special device) => device.readError?.elim (.ok device.content) .error

/-- The text of a file. -/
def read (fs : FileSystem) (p : Path) : Except OsError String :=
  match fs.readBytes p with
  | .error e => .error e
  | .ok content => (String.fromUTF8? content).elim (.error .notText) .ok

/-- The directory that a path leads through last. -/
def container (fs : FileSystem) (p : Path) : Except OsError Location :=
  match pathError? p with
  | some e => .error e
  | none => fs.tree.walk (fs.start p) p.names.dropLast

/-- Makes one directory. -/
def makeDirectory (fs : FileSystem) (p : Path) : Except OsError FileSystem :=
  match fs.container p, p.names.getLast? with
  | .error e, _ => .error e
  | .ok _, none => .error .alreadyExists
  | .ok place, some name =>
    if inside : fs.tree.entry place = some .directory then
      if name = "." || name = ".." then .error .alreadyExists
      else if FileTree.maxNameBytes < name.utf8ByteSize then .error .nameTooLong
      else if (fs.tree.entry (name :: place)).isSome then .error .alreadyExists
      else
        match fs.limits.refusal? (name :: place) with
        | some e => .error e
        | none => .ok { fs with tree := fs.tree.addDirectory name place inside }
    else .error .notDirectory

/-- Makes the first directory of some that lie within each other. Where the next one is missing,
that is made before. What was made stays if something fails later. -/
def makeFirst (fs : FileSystem) : List Path → FileSystem × Except OsError Unit
  | [] => (fs, .error .noParent)
  | p :: parents =>
    if p.text.isEmpty then (fs, .ok ())
    else
      match fs.makeDirectory p with
      | .ok fs => (fs, .ok ())
      | .error .notFound =>
        match fs.makeFirst parents with
        | (fs, .error e) => (fs, .error e)
        | (fs, .ok ()) =>
          match fs.makeDirectory p with
          | .ok fs => (fs, .ok ())
          | .error e => (fs, if fs.kind? p = some .directory then .ok () else .error e)
      | .error e => (fs, if fs.kind? p = some .directory then .ok () else .error e)

/-- Makes a directory and those that it lies in. -/
def createDirectories (fs : FileSystem) (p : Path) : FileSystem × Except OsError Unit :=
  fs.makeFirst (p :: p.ancestors.tail)

/-- Where the file of a path stands, or can be put. -/
def slot (fs : FileSystem) (p : Path) : Except OsError fs.tree.Slot :=
  match fs.container p, p.names.getLast? with
  | .error e, _ => .error e
  | .ok _, none => .error .isDirectory
  | .ok place, some name =>
    if inside : fs.tree.entry place = some .directory then
      if name = "." || name = ".." || endsInSlash p then .error .isDirectory
      else if FileTree.maxNameBytes < name.utf8ByteSize then .error .nameTooLong
      else if free : fs.tree.entry (name :: place) = some .directory then .error .isDirectory
      else .ok ⟨name, place, inside, free⟩
    else .error .notDirectory

def putFile (fs : FileSystem) (slot : fs.tree.Slot) (content : ByteArray) : FileSystem :=
  { fs with tree := fs.tree.putFile slot content }

/-- Writes a file, new or in the place of another one. It is emptied when it is opened; if it does
not take all bytes, the first ones are in it. -/
def writeBytes (fs : FileSystem) (p : Path) (content : ByteArray) :
    FileSystem × Except OsError Unit :=
  match fs.slot p with
  | .error e => (fs, .error e)
  | .ok slot =>
    match fs.limits.refusal? slot.place, fs.tree.entry slot.place with
    | some e, _ => (fs, .error e)
    | none, some (.special device) => (fs, device.writeError?.elim (.ok ()) .error)
    | none, _ =>
      match fs.limits.stop? slot.place content with
      | some (n, e) => (fs.putFile slot (content.extract 0 n), .error e)
      | none => (fs.putFile slot content, .ok ())

def write (fs : FileSystem) (p : Path) (text : String) : FileSystem × Except OsError Unit :=
  fs.writeBytes p text.toUTF8

/-- Removes a file or a device. -/
def remove? (fs : FileSystem) (p : Path) : Option FileSystem :=
  match fs.slot p with
  | .error _ => none
  | .ok slot =>
    if (fs.tree.entry slot.place).isSome then some { fs with tree := fs.tree.removeFile slot }
    else none

end FileSystem

/-! ## Disks -/

/-- What the program asks of the machine it runs on. One instance is a file system as plain data, so
that everything the program does with files can be run and reasoned about without a machine. -/
class Disk (m : Type → Type) where
  currentDirectory : m Path
  /-- What stands at each of some paths at one moment. -/
  kinds : List Path → m (Path → Option Kind)
  canonical? : Path → m (Option Path)
  read : Path → m (Except OsError String)
  createDirectories : Path → m (Except OsError Unit)
  write : Path → String → m (Except OsError Unit)

instance : Disk (StateM FileSystem) where
  currentDirectory := fun fs => (fs.currentDirectory, fs)
  kinds _ := fun fs => (fs.kind?, fs)
  canonical? p := fun fs => (fs.canonical? p, fs)
  read p := fun fs => (fs.read p, fs)
  createDirectories p := fun fs => ((fs.createDirectories p).2, (fs.createDirectories p).1)
  write p text := fun fs => ((fs.write p text).2, (fs.write p text).1)

end SiteManifest
