import SiteManifest.Files.Path
import SiteManifest.Manifest.Format

/-!
# Arguments

A command line names a command with its options. Two options stand before or behind the name of the
command; no option stands twice in one place.
-/
namespace SiteManifest

inductive Command where
  | init (name : Option Path) (dry : Bool) (format : Format)
  | check (checkReferences verbose : Bool)
  | dump (format : Format) (checkReferences : Bool)
  deriving DecidableEq, Repr

structure Invocation where
  /-- The manifest to look for, if it is not one of the usual names. -/
  manifest : Option Path
  command : Command
  deriving DecidableEq, Repr

inductive Request where
  | run (invocation : Invocation)
  | version
  | help
  /-- The arguments make no sense. -/
  | misused
  deriving DecidableEq, Repr

namespace Arguments

/-- What may stand behind a dash or two. -/
inductive Name where
  | color
  | config
  | format
  | dry
  | noReferences
  | verbose
  | version
  | help
  deriving DecidableEq, Repr

def Name.ofLong? : String → Option Name
  | "color" => some .color
  | "config" => some .config
  | "format" => some .format
  | "dry" => some .dry
  | "no-references" => some .noReferences
  | "verbose" => some .verbose
  | "version" => some .version
  | "help" => some .help
  | _ => none

inductive Word where
  | init
  | check
  | dump
  deriving DecidableEq, Repr

def Word.ofString? : String → Option Word
  | "init" | "i" => some .init
  | "check" | "c" => some .check
  | "dump" | "d" => some .dump
  | _ => none

/-- The place where an option stands: behind the word for a command, or before it. -/
abbrev Level := Option Word

/-- The names that a level knows. -/
def knows (level : Level) : Name → Bool
  | .color | .config | .help => true
  | .version => level == none
  | .format => level == some .init || level == some .dump
  | .dry => level == some .init
  | .noReferences => level == some .check || level == some .dump
  | .verbose => level == some .check

def Name.ofLetter? : Char → Option Name
  | 'C' => some .config
  | 'h' => some .help
  | 'f' => some .format
  | _ => none

/-- The option behind one dash. The letter `V` asks for the version before a command and for a
verbose check behind it. -/
def short? (level : Level) (c : Char) : Option Name :=
  let name :=
    if c = 'V' then some (if level == none then .version else .verbose) else Name.ofLetter? c
  name.filter (knows level)

def Name.takesValue : Name → Bool
  | .color | .config | .format => true
  | _ => false

def formatOf? : String → Option Format
  | "json" => some .json
  | "toml" => some .toml
  | _ => none

/-- Whether an option may have a value. -/
def Name.accepts (name : Name) (value : String) : Bool :=
  match name with
  | .color => value ∈ ["auto", "always", "never"]
  | .config => !value.isEmpty
  | .format => (formatOf? value).isSome
  | _ => false

/-- Options with their values, which are empty for those that take none, and names. -/
structure Given where
  options : List (Name × String)
  names : List String

def Given.empty : Given := ⟨[], []⟩

def Given.value? (given : Given) (name : Name) : Option String := given.options.lookup name

def Given.has (given : Given) (name : Name) : Bool := (given.value? name).isSome

/-- What an argument makes of those that were given before it. -/
inductive Progress where
  | on (given : Given)
  /-- An option whose value is the next argument. -/
  | waiting (given : Given) (name : Name)
  | stop (request : Request)

/-- One more option, which must be new and have a value that it accepts. -/
def Given.add (given : Given) (name : Name) (value : String) : Progress :=
  if given.has name || (name.takesValue && !name.accepts value) then .stop .misused
  else .on ⟨given.options ++ [(name, value)], given.names⟩

/-- An option without a value behind it. -/
def Given.addBare (given : Given) (name : Name) : Progress :=
  if name = .help then .stop .help
  else if name = .version then .stop .version
  else if name.takesValue then .waiting given name
  else given.add name ""

/-- An option with two dashes, whose value may stand behind an equals sign. -/
def Given.addLong (given : Given) (level : Level) (text : List Char) : Progress :=
  match Name.ofLong? (String.ofList (text.takeWhile (· ≠ '='))), text.dropWhile (· ≠ '=') with
  | none, _ => .stop .misused
  | some name, value =>
    if !knows level name then .stop .misused
    else
      match value with
      | [] => given.addBare name
      | _ :: value =>
        if name.takesValue then given.add name (String.ofList value) else .stop .misused

/-- Options of one letter each behind one dash. What follows one that takes a value is its value. -/
def Given.addShort (given : Given) (level : Level) : List Char → Progress
  | [] => .on given
  | c :: cs =>
    match short? level c with
    | none => .stop .misused
    | some name =>
      if name.takesValue then
        match cs with
        | [] => .waiting given name
        | '=' :: value => given.add name (String.ofList value)
        | value => given.add name (String.ofList value)
      else
        match given.addBare name with
        | .on given => given.addShort level cs
        | other => other

/-- A name, of which only one command takes one. -/
def Given.addName (given : Given) (level : Level) (name : String) : Progress :=
  if level == some .init && given.names.isEmpty && !name.isEmpty then .on ⟨given.options, [name]⟩
  else .stop .misused

/-- Whether an argument can be no value: it starts with a dash and has more. -/
def isOption : List Char → Bool
  | '-' :: _ :: _ => true
  | _ => false

/-- Names only. -/
def readNames (level : Level) (given : Given) : List String → Except Request Given
  | [] => .ok given
  | name :: rest =>
    match given.addName level name with
    | .on given => readNames level given rest
    | _ => .error .misused

/-- The arguments of a level and those that are left. Before a command, a name ends the level;
behind two dashes every argument is a name. -/
def read (level : Level) (given : Given) : List String → Except Request (Given × List String)
  | [] => .ok (given, [])
  | arg :: rest =>
    let go (progress : Progress) : Except Request (Given × List String) :=
      match progress with
      | .stop request => .error request
      | .on given => read level given rest
      | .waiting given name =>
        match rest with
        | [] => .error .misused
        | value :: rest =>
          match if isOption value.toList then .stop .misused else given.add name value with
          | .on given => read level given rest
          | _ => .error .misused
    match arg.toList with
    | ['-', '-'] => (readNames level given rest).map fun given => (given, [])
    | '-' :: '-' :: text => go (given.addLong level text)
    | '-' :: c :: cs => go (given.addShort level (c :: cs))
    | _ => if level == none then .ok (given, arg :: rest) else go (given.addName level arg)

def formatOr (usual : Format) (given : Given) : Format :=
  ((given.value? .format).bind formatOf?).getD usual

def Word.command (word : Word) (given : Given) : Command :=
  match word with
  | .init => .init (given.names.head?.map Path.mk) (given.has .dry) (formatOr .toml given)
  | .check => .check (!given.has .noReferences) (given.has .verbose)
  | .dump => .dump (formatOr .json given) (!given.has .noReferences)

/-- Help on the program or on one command. -/
def helpOn : List String → Request
  | [] => .help
  | [word] => if word = "help" || (Word.ofString? word).isSome then .help else .misused
  | _ => .misused

/-- A command with the options behind it. Of two manifests the one behind the command counts. -/
def ofWord (top : Given) (word : Word) (args : List String) : Request :=
  match read (some word) .empty args with
  | .error request => request
  | .ok (given, _) =>
    .run ⟨((given.value? .config).or (top.value? .config)).map Path.mk, word.command given⟩

end Arguments

def Request.ofArguments (args : List String) : Request :=
  match Arguments.read none .empty args with
  | .error request => request
  | .ok (_, []) => .misused
  | .ok (top, name :: rest) =>
    if name = "help" then Arguments.helpOn rest
    else
      match Arguments.Word.ofString? name with
      | none => .misused
      | some word => Arguments.ofWord top word rest

end SiteManifest
