import SiteManifest.Command.Run

/-!
# The command line

The program on the machine it runs on: files are those of the machine, and what a command writes
goes to the standard streams.
-/
namespace SiteManifest

def OsError.ofMachine (e : IO.Error) : OsError :=
  match e with
  | .noFileOrDirectory .. => .notFound
  | .alreadyExists .. => .alreadyExists
  | e => .other (toString e)

def attemptOnMachine (action : IO α) : IO (Except OsError α) := do
  try
    let a ← action
    return .ok a
  catch e => return .error (.ofMachine e)

def Kind.ofMachine (type : IO.FS.FileType) : Kind :=
  match type with
  | .file => .file
  | .dir => .directory
  | .symlink | .other => .special

/-- What stands at the end of all links. -/
def kindOnMachine (p : Path) : IO (Option Kind) := do
  let found ← attemptOnMachine do
    let place ← IO.FS.realPath p.text
    place.metadata
  match found with
  | .ok metadata => return some (.ofMachine metadata.type)
  | .error _ => return none

instance : Disk IO where
  currentDirectory := do return ⟨(← IO.currentDir).toString⟩
  kinds paths := do
    let known ← paths.mapM fun p => do return (p, ← kindOnMachine p)
    return fun p => (known.lookup p).getD none
  canonical? p := do
    match ← attemptOnMachine (IO.FS.realPath p.text) with
    | .ok q => return some ⟨q.toString⟩
    | .error _ => return none
  read p := do
    match ← attemptOnMachine (IO.FS.readBinFile p.text) with
    | .ok content => return (String.fromUTF8? content).elim (.error .notText) .ok
    | .error e => return .error e
  createDirectories p := do
    if p.text.isEmpty then return .ok ()
    attemptOnMachine (IO.FS.createDirAll p.text)
  write p text := attemptOnMachine (IO.FS.writeFile p.text text)

end SiteManifest

def main (args : List String) : IO UInt32 := do
  let transcript ← (SiteManifest.Program.run args : IO SiteManifest.Transcript)
  (← IO.getStderr).putStr transcript.log
  (← IO.getStdout).putStr transcript.output
  return transcript.code.toUInt32
