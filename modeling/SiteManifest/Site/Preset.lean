import SiteManifest.Json.Basic
import SiteManifest.Shape.Basic
import SiteManifest.Site.Issue

/-!
# Presets

A preset is a name, or a name with options that belong to the build tool. Of the options only the
files that they name are looked at: the sidebar of the documentation and the stylesheets of the
theme.
-/
namespace SiteManifest

open Text

inductive Preset where
  | plain (name : String)
  | configured (name : String) (options : Members)
  deriving DecidableEq, Repr

namespace Preset

def shape : Shape Preset :=
  .nameOrPair "a preset name or a [name, options] pair"
    { pack := fun
        | .inl name => .plain name
        | .inr (name, options) => .configured name options
      unpack := fun
        | .plain name => .inl name
        | .configured name options => .inr (name, options)
      pack_unpack := by rintro (_ | _) <;> rfl
      unpack_pack := by rintro (_ | _) <;> rfl }

def name : Preset → String
  | .plain name | .configured name _ => name

def options? : Preset → Option Members
  | .plain _ => none
  | .configured _ options => some options

/-- The option found by following keys; no keys lead nowhere. -/
def option? (p : Preset) (keys : List String) : Option Json :=
  if keys.isEmpty then none else p.options?.bind fun options => (Json.table options).follow? keys

/-! ## Files -/

/-- The file that defines the sidebar. -/
def sidebarPath? (p : Preset) : Option String :=
  (p.option? ["docs", "sidebarPath"]).bind Json.asString?

/-- The stylesheets, which are one text or those in a list. -/
def stylesheets (p : Preset) : List String :=
  match p.option? ["theme", "customCss"] with
  | some (.string s) => [s]
  | some (.list vs) => vs.filterMap Json.asString?
  | _ => []

/-- A text, or the texts in a list, each with its place. -/
def textsOf : Json → List (Located String)
  | .string s => [.here s]
  | .list vs => Located.each (fun v => (v.asString?.map Located.here).toList) 0 vs
  | _ => []

/-- The texts of the stylesheets, counted from the option that names them. -/
def stylesheetTexts (p : Preset) : List (Located String) :=
  (p.option? ["theme", "customCss"]).elim [] textsOf

/-- All files that the options name. -/
def files (p : Preset) : List (Located String) :=
  let sidebar := (p.sidebarPath?.map Located.here).toList
  Located.below (.index 1)
    (Located.below (.key "docs") (Located.below (.key "sidebarPath") sidebar) ++
      Located.below (.key "theme") (Located.below (.key "customCss") p.stylesheetTexts))

/-! ## Checks -/

/-- An option that names a file. -/
def checkFile (v : Json) : List Finding :=
  match v.asString? with
  | some s => requireText .presetFile s
  | none => [.here (.notText v.kind)]

/-- An option that names a file, or a list of them. -/
def checkFiles : Json → List Finding
  | .list vs => Located.each checkFile 0 vs
  | v => checkFile v

def checkDocs : Json → List Finding
  | .table docs =>
    Located.below (.key "sidebarPath") ((docs.lookup "sidebarPath").elim [] checkFile)
  | .bool false => []
  | v => [.here (.notTableOrFalse v.kind)]

def checkTheme : Json → List Finding
  | .table theme =>
    Located.below (.key "customCss") ((theme.lookup "customCss").elim [] checkFiles)
  | v => [.here (.notTable v.kind)]

def checkOptions (options : Members) : List Finding :=
  Located.below (.key "docs") ((options.lookup "docs").elim [] checkDocs) ++
    Located.below (.key "theme") ((options.lookup "theme").elim [] checkTheme)

def check (p : Preset) : List Finding :=
  requireText .presetName p.name ++ Located.below (.index 1) (p.options?.elim [] checkOptions)

end Preset

end SiteManifest
