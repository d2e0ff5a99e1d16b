import SiteManifest.Diagnostics
import SiteManifest.Located
import SiteManifest.Shape.Misfit
import SiteManifest.Text.Property
import SiteManifest.Url.Basic

/-!
# Issues

Everything that a manifest can be blamed for, with the wording of each message and hint. An issue
is an error or a warning by its kind alone.
-/
namespace SiteManifest

open Text

/-- The texts that may not be blank. -/
inductive Subject where
  | title
  | favicon
  | linkLabel
  | linkTarget
  | logoImage
  | sectionTitle
  | themeName
  | presetName
  | presetFile
  deriving DecidableEq, Repr

/-- The subject of the sentence about a blank text. A file of a preset has no name of its own. -/
def Subject.opening : Subject → String
  | .title => "title "
  | .favicon => "favicon path "
  | .linkLabel => "label "
  | .linkTarget => "link target "
  | .logoImage => "logo image path "
  | .sectionTitle => "section title "
  | .themeName => "theme name "
  | .presetName => "preset name "
  | .presetFile => ""

inductive Issue where
  | unknownKey (key : String) (suggestion : Option String)
  | misfit (cause : Misfit)
  | blank (subject : Subject)
  | invalidUrl (fault : Url.Fault)
  | unsupportedScheme (scheme : String)
  | noHost
  | urlWithPath (path : String)
  | emptyBaseUrl
  | baseUrlWithoutStart (baseUrl : String)
  | baseUrlWithoutEnd
  | twoTargets
  | noTarget
  | externalPage (target : String)
  | invalidLink (target : String) (fault : Url.Fault)
  | emptySection
  | unbundledTheme (name : String)
  | writtenTwice (key : String)
  | notTableOrFalse (kind : String)
  | notTable (kind : String)
  | notText (kind : String)
  | missingFile (reference : String) (path : String)
  deriving DecidableEq, Repr

namespace Issue

/-- Warnings are about values that are taken as they stand. -/
def isWarning : Issue → Bool
  | .urlWithPath _ | .baseUrlWithoutEnd | .externalPage _ | .emptySection | .unbundledTheme _ =>
    true
  | _ => false

/-- A key of the manifest as a sentence shows it. -/
def keyText (key : String) : String := (FieldPath.root.key key).display

def message : Issue → String
  | .unknownKey key _ => "unknown field \x60" ++ key ++ "\x60"
  | .misfit cause => cause.message
  | .blank subject => subject.opening ++ "must not be empty"
  | .invalidUrl fault => "invalid URL: " ++ fault.message
  | .unsupportedScheme scheme =>
    "scheme '" ++ scheme ++ "' not supported, must be http or https"
  | .noHost => "URL must have a valid host"
  | .urlWithPath path => "path '/" ++ path ++ "' belongs in " ++ keyText "baseUrl"
  | .emptyBaseUrl => "base URL must not be empty"
  | .baseUrlWithoutStart baseUrl => "'" ++ baseUrl ++ "' must start with '/'"
  | .baseUrlWithoutEnd => "base URL should end with '/'"
  | .twoTargets => keyText "to" ++ " and " ++ keyText "href" ++ " are mutually exclusive"
  | .noTarget => "link has no target"
  | .externalPage target => "'" ++ target ++ "' looks external, \x60href\x60 is meant for URLs"
  | .invalidLink target fault => "invalid URL '" ++ target ++ "': " ++ fault.message
  | .emptySection => "footer section has no links"
  | .unbundledTheme name => "'" ++ name ++ "' is not a bundled prism theme"
  | .writtenTwice key => keyText key ++ " is also set at the top level"
  | .notTableOrFalse kind => "expected a table or \x60false\x60, found " ++ kind
  | .notTable kind => "expected a table, found " ++ kind
  | .notText kind => "expected a string, found " ++ kind
  | .missingFile reference _ => "file '" ++ reference ++ "' not found"

def hint? : Issue → Option String
  | .unknownKey _ suggestion => suggestion.map fun key => "did you mean \x60" ++ key ++ "\x60?"
  | .invalidUrl _ | .unsupportedScheme _ | .noHost =>
    some "use format like https://graphql-ppx.com"
  | .emptyBaseUrl => some "use \"/\" for a site served at the domain root"
  | .baseUrlWithoutStart baseUrl => some ("use \"/" ++ baseUrl ++ "\"")
  | .twoTargets => some "keep \x60to\x60 for site pages or \x60href\x60 for external URLs"
  | .noTarget => some "set \x60to\x60 for site pages or \x60href\x60 for external URLs"
  | .invalidLink _ _ => some "use \x60to\x60 for paths inside the site"
  | .writtenTwice _ => some "keep one of the two"
  | .missingFile _ path => some ("expected at " ++ path)
  | _ => none

end Issue

/-- An issue with its place in the value that was checked. -/
abbrev Finding := Located Issue

namespace Finding

def isError (f : Finding) : Bool := !f.what.isWarning

/-- The diagnostic of a finding in a value that stands at a path. -/
def diagnostic (base : FieldPath) (f : Finding) : Diagnostic :=
  ⟨f.path base, f.what.message, f.what.hint?⟩

end Finding

/-- The diagnostics of findings, in their order. -/
def Diagnostics.ofFindings (base : FieldPath) (findings : List Finding) : Diagnostics where
  errors := (findings.filter Finding.isError).map (Finding.diagnostic base)
  warnings := (findings.filter (!Finding.isError ·)).map (Finding.diagnostic base)

/-- A text that may not be blank. -/
def requireText (subject : Subject) (s : String) : List Finding :=
  if IsBlank s then [.here (.blank subject)] else []

end SiteManifest
