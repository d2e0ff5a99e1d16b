import SiteManifest.FieldPath

/-!
# Diagnostics

Errors and warnings about a manifest, and the text that reports the errors.
-/
namespace SiteManifest

open Text

structure Diagnostic where
  field : FieldPath
  message : String
  hint : Option String
  deriving DecidableEq, Repr

def Diagnostic.hintText (d : Diagnostic) : String :=
  match d.hint with
  | none => ""
  | some hint => "\n  " ++ Style.paint .yellow "hint:" ++ " " ++ hint

def Diagnostic.display (d : Diagnostic) : String :=
  Style.paint .dimmed "[" ++ Style.paint .cyan d.field.shown ++ Style.paint .dimmed "]" ++ "\n" ++
    Style.paint .red "→" ++ " " ++ d.message ++ d.hintText

structure Diagnostics where
  errors : List Diagnostic
  warnings : List Diagnostic
  deriving DecidableEq, Repr

namespace Diagnostics

def empty : Diagnostics := ⟨[], []⟩

def ofError (d : Diagnostic) : Diagnostics := ⟨[d], []⟩

def hasErrors (d : Diagnostics) : Bool := !d.errors.isEmpty

/-- Whether an error stands at exactly this path. -/
def hasErrorAt (d : Diagnostics) (path : String) : Bool := d.errors.any (·.field.text == path)

/-- The diagnostics of something acceptable, which are warnings only, or those that refuse it. -/
def toExcept (d : Diagnostics) : Except Diagnostics Diagnostics :=
  if d.hasErrors then .error d else .ok d

def boldRed (s : String) : String := Style.paint .bold (Style.paint .red s)

/-- How many errors there are, if more than one. -/
def total (d : Diagnostics) : String :=
  if 1 < d.errors.length then
    "\n\n" ++ Style.paint .dimmed "found" ++ " " ++ boldRed (toString d.errors.length) ++ " " ++
      Style.paint .dimmed "errors"
  else ""

/-- The report of all errors. -/
def display (d : Diagnostics) : String :=
  boldRed "config validation failed:" ++ "\n\n" ++
    "\n\n".intercalate (d.errors.map Diagnostic.display) ++ d.total

end Diagnostics

end SiteManifest
