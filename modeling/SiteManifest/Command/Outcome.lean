import SiteManifest.Manifest.Text

/-!
# Outcomes

What a command leaves behind: the lines that it logged, each behind a coloured name in square
brackets, and a result or the reason why there is none.
-/
namespace SiteManifest

namespace Log

open Text

/-- The colour of a name. -/
def colour (name : String) : Style :=
  let name := String.ofList (name.toList.map Char.toLower)
  if name = "check" || name = "ok" then .brightGreen
  else if name = "error" then .brightRed
  else if name = "hint" then .brightBlue
  else .brightYellow

def line (name message : String) : String :=
  Style.paint .bold (Style.paint (colour name) ("[" ++ name ++ "]")) ++ " " ++ message ++ "\n"

/-- Warnings as a list below a heading, nothing if there are none. -/
def warnings (ws : List Diagnostic) : String :=
  if ws.isEmpty then ""
  else
    line "warning" "suspicious values, the build tool may reject them:" ++
      String.join (ws.map fun w => "- " ++ w.field.text ++ ": " ++ w.message ++ "\n")

end Log

inductive CommandError where
  | manifest (failure : Failure)
  | notFound (wanted : Path)
  | alreadyThere (path : Path)
  | notCreated (directory : Path) (cause : OsError)
  | notWritten (path : Path) (cause : OsError)
  deriving DecidableEq, Repr

namespace CommandError

def message : CommandError → String
  | .manifest failure => failure.message
  | .notFound wanted =>
    "config file '" ++ wanted.text ++ "' not found. Run 'docsite init' to create one."
  | .alreadyThere path =>
    "'" ++ path.text ++ "' already exists.\n" ++
      "Remove it or run \x60docsite check\x60 to validate it."
  | .notCreated directory _ => "Failed to create directory '" ++ directory.text ++ "'"
  | .notWritten path _ => "Failed to write '" ++ path.text ++ "'"

/-- What is behind an error and not part of its message. -/
def cause? : CommandError → Option String
  | .manifest failure => failure.cause?
  | .notFound _ | .alreadyThere _ => none
  | .notCreated _ cause | .notWritten _ cause => some cause.message

/-- The error as the program reports it. -/
def report (e : CommandError) : String :=
  "Error: " ++ e.message ++
    (e.cause?.elim "" fun cause => "\n\nCaused by:\n    " ++ cause) ++ "\n"

end CommandError

structure Outcome (α : Type) where
  log : String
  result : Except CommandError α

/-- An outcome without a log. -/
def Outcome.quiet (result : Except CommandError α) : Outcome α := ⟨"", result⟩

end SiteManifest
