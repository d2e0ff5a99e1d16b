import SiteManifest.Site.Basic
import SiteManifest.Url.Parser

/-!
# Checking a site

What a manifest of the right shape can still be blamed for. Findings come in the order of the
schema, whichever order the manifest was written in.
-/
namespace SiteManifest.Site

open Text

/-- A path without the slashes around it. -/
def innerPath (path : String) : String :=
  let chars := path.toList.dropWhile (· == '/')
  String.ofList (chars.reverse.dropWhile (· == '/')).reverse

/-- What a URL of a site may not be. -/
def checkOrigin (url : Url) : List Finding :=
  (if url.scheme ∈ ["http", "https"] then [] else [.here (.unsupportedScheme url.scheme)]) ++
    (if url.host.isNone then [.here .noHost] else []) ++
    (if (innerPath url.path).isEmpty then [] else [.here (.urlWithPath (innerPath url.path))])

def checkUrl (url : String) : List Finding :=
  match Url.parse url with
  | .ok parsed => checkOrigin parsed
  | .error fault => [.here (.invalidUrl fault)]

def checkBaseUrl (baseUrl : String) : List Finding :=
  match baseUrl.toList with
  | [] => [.here .emptyBaseUrl]
  | c :: cs =>
    if c ≠ '/' then [.here (.baseUrlWithoutStart baseUrl)]
    else if (c :: cs).getLast? = some '/' then []
    else [.here .baseUrlWithoutEnd]

def checkMetadata (s : Site) : List Finding :=
  Located.below (.key "title") (requireText .title s.title) ++
    Located.below (.key "url") (checkUrl s.url) ++
    Located.below (.key "baseUrl") (checkBaseUrl s.baseUrl) ++
    Located.below (.key "favicon") (s.favicon.elim [] (requireText .favicon))

/-- A section of the theme table that is written at the top level, too. -/
def checkOnce (key : String) (outer : Option α) (inner : Option α) : List Finding :=
  if outer.isSome && inner.isSome then [⟨[.key key], .writtenTwice key⟩] else []

def checkTheme (s : Site) (t : Theme) : List Finding :=
  t.check ++ checkOnce "navbar" s.navbar t.navbar ++ checkOnce "footer" s.footer t.footer ++
    checkOnce "prism" s.prism t.prism

def check (s : Site) : List Finding :=
  s.checkMetadata ++
    Located.below (.key "navbar") (s.navbar.elim [] Navbar.check) ++
    Located.below (.key "footer") (s.footer.elim [] Footer.check) ++
    Located.below (.key "prism") (s.prism.elim [] Prism.check) ++
    Located.below (.key "themeConfig") (s.theme.elim [] s.checkTheme) ++
    Located.below (.key "presets") (Located.each Preset.check 0 s.presetList)

end SiteManifest.Site
