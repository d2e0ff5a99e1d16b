import SiteManifest.Json.Parser
import SiteManifest.Json.Printer
import SiteManifest.Toml.Printer

/-!
# Text formats

The two formats that a manifest is read from and written in.
-/
namespace SiteManifest

inductive Format where
  | json
  | toml
  deriving DecidableEq, Repr

/-- JSON is what the build tool takes. -/
instance : Inhabited Format := ⟨.json⟩

/-- Why a text is not of its format. -/
inductive Malformed where
  | json (text : String) (failure : Json.Failure)
  | toml
  deriving DecidableEq, Repr

def Malformed.message : Malformed → String
  | .json text failure => failure.message text
  | .toml => "TOML parse error"

namespace Format

/-- The name of a manifest of the format. -/
def fileName : Format → String
  | .json => "docsite.json"
  | .toml => "docsite.toml"

def parse (format : Format) (text : String) : Except Malformed Json :=
  match format with
  | .json => (Json.parse text).mapError (.json text)
  | .toml =>
    match Toml.parse? text with
    | some v => .ok v
    | none => .error .toml

/-- Every value has a text in JSON; TOML lacks a form for some. -/
def render (format : Format) (v : Json) : Except Toml.Fault String :=
  match format with
  | .json => .ok (Json.pretty v)
  | .toml => Toml.render v

end Format

end SiteManifest
