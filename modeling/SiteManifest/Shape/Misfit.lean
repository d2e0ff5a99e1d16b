import SiteManifest.Json.Basic
import SiteManifest.Json.Printer
import SiteManifest.Text.Display

/-!
# Misfits

Why a value does not have the shape that a manifest asks for, and how that is told.
-/
namespace SiteManifest

open Text

/-- A value in a sentence about its type. Scalars are quoted in full. -/
def Json.described : Json → String
  | .null => "null"
  | .bool b => "boolean \x60" ++ toString b ++ "\x60"
  | .number (.integer n) => "integer \x60" ++ toString n.value ++ "\x60"
  | .number (.real x) => "floating point \x60" ++ numeralText (.real x) ++ "\x60"
  | .string s => "string " ++ quoted s
  | .list _ => "sequence"
  | .table _ => "map"

inductive Misfit where
  | missing (key : String)
  | mistyped (found : Json) (expected : String)
  | manyKeys
  | unknownVariant (name : String) (known : List String)
  | wrongLength (length : Nat) (expected : String)
  deriving DecidableEq, Repr

/-- A choice of names, each between backquotes. -/
def alternatives (names : List String) : String :=
  let quote (name : String) : String := "\x60" ++ name ++ "\x60"
  match names with
  | [] => ""
  | [a] => quote a
  | [a, b] => quote a ++ " or " ++ quote b
  | names => "one of " ++ ", ".intercalate (names.map quote)

def Misfit.message : Misfit → String
  | .missing key => "missing field \x60" ++ key ++ "\x60"
  | .mistyped found expected => "invalid type: " ++ found.described ++ ", expected " ++ expected
  | .manyKeys => "invalid value: map, expected map with a single key"
  | .unknownVariant name known =>
    "unknown variant \x60" ++ name ++ "\x60, expected " ++ alternatives known
  | .wrongLength length expected =>
    "invalid length " ++ toString length ++ ", expected " ++ expected

/-- What a list too short for a record should have been. -/
def recordWanted (name : String) (count : Nat) : String :=
  "struct " ++ name ++ " with " ++ counted count "element"

end SiteManifest
