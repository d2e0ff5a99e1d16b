import SiteManifest.Command.Arguments
import SiteManifest.Command.Check
import SiteManifest.Command.Init

/-!
# The program

From arguments to what the program writes and the code that it ends with: zero if all went well, one
if a command failed, two if the arguments made no sense.
-/
namespace SiteManifest

structure Transcript where
  code : Nat
  output : String
  log : String
  deriving DecidableEq, Repr

namespace Program

def version : String := "docsite 0.1.0"

def usage : String :=
  "Usage: docsite [--color WHEN] [-C PATH] COMMAND\n\n" ++
    "Commands:\n" ++
    "  init   [NAME] [--dry] [-f FORMAT]           Create a starter config\n" ++
    "  check  [--no-references] [-V]               Validate the config and its files\n" ++
    "  dump   [-f FORMAT] [--no-references]        Print the config\n"

/-- A command that has ended. -/
def finish (outcome : Outcome String) : Transcript :=
  match outcome.result with
  | .ok output => ⟨0, output, outcome.log⟩
  | .error e => ⟨1, "", outcome.log ++ e.report⟩

/-- The names of a manifest, in the order of looking for them. -/
def usualNames : List Path := [⟨Format.toml.fileName⟩, ⟨Format.json.fileName⟩]

variable {m : Type → Type} [Monad m] [Disk m]

/-- A command for the manifest that is found under the wanted name or else a usual one. -/
def withManifest (wanted : Option Path) (command : Path → m (Outcome String)) :
    m (Outcome String) := do
  match ← Manifest.find? (wanted.elim usualNames fun p => [p]) with
  | some path => command path
  | none => pure (.quiet (.error (.notFound (wanted.getD ⟨Format.toml.fileName⟩))))

def runCommand (invocation : Invocation) : m (Outcome String) :=
  match invocation.command with
  | .init name dry format => Init.run name dry format
  | .check checkReferences verbose =>
    withManifest invocation.manifest fun path => do
      let outcome ← Check.run path ⟨checkReferences, verbose⟩
      pure ⟨outcome.log, outcome.result.map fun _ => ""⟩
  | .dump format checkReferences =>
    withManifest invocation.manifest fun path => Dump.run path format checkReferences

def run (args : List String) : m Transcript :=
  match Request.ofArguments args with
  | .run invocation => do pure (finish (← runCommand invocation))
  | .version => pure ⟨0, version ++ "\n", ""⟩
  | .help => pure ⟨0, usage, ""⟩
  | .misused => pure ⟨2, "", usage⟩

end Program

end SiteManifest
