import SiteManifest.Shape.Decode
import SiteManifest.Site.Check
import SiteManifest.Text.Casing

/-!
# Loading a manifest

A value becomes a site if it has the shape of one, holds no unknown keys and passes all checks.
Whatever speaks against it is reported together: unknown keys first, then either the misfit that
ended reading or the findings of the checks.
-/
namespace SiteManifest.Site

open Text

/-- Every key of every record. A key of several records occurs several times. -/
def knownKeys : List String :=
  fields.keys ++ Link.fields.keys ++ NavbarTable.fields.keys ++ Logo.fields.keys ++
    FooterTable.fields.keys ++ FooterSection.fields.keys ++ Prism.fields.keys ++ Theme.fields.keys

/-- The first of some keys that differs from an unknown one in case and separators only. -/
def suggestKey (unknown : String) (known : List String) : Option String :=
  known.find? fun key => key ≠ unknown && squash key = squash unknown

/-- The key at the end of some steps; an index counts as the empty key. -/
def lastKey (steps : List Step) : String :=
  match steps.getLast? with
  | some (.key name) => name
  | _ => ""

def unknownKey (steps : List Step) : Finding :=
  let key := lastKey steps
  ⟨steps, .unknownKey key (suggestKey key knownKeys)⟩

def misfit (m : Located Misfit) : Finding := ⟨m.steps, .misfit m.what⟩

/-- Everything found in a value that was read as a site. -/
def findings (reading : Reading Site) : List Finding :=
  reading.unknown.map unknownKey ++
    match reading.result with
    | .error m => [misfit m]
    | .ok site => site.check

/-- The site of a value with the warnings about it, or everything that speaks against it. -/
def load (raw : Json) : Except Diagnostics (Site × Diagnostics) :=
  let reading := shape.decode raw
  let diagnostics := Diagnostics.ofFindings .root (findings reading)
  match reading.result with
  | .error _ => .error diagnostics
  | .ok site => diagnostics.toExcept.map fun warnings => (site, warnings)

end SiteManifest.Site
