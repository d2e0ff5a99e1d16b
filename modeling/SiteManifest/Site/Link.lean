import SiteManifest.Shape.Basic
import SiteManifest.Site.Issue
import SiteManifest.Url.Parser

/-!
# Links

A link of the navbar or the footer leads to a page of the site or to a URL elsewhere, never to both.
-/
namespace SiteManifest

open Text

/-- The side of the navbar that a link is on. -/
inductive Position where
  | left
  | right
  deriving DecidableEq, Repr

def Position.variants : Variants Position where
  all := [.left, .right]
  name
    | .left => "left"
    | .right => "right"
  mem_all a := by cases a <;> simp
  name_injective a b := by cases a <;> cases b <;> simp

structure Link where
  /-- A page of the site, under the key `to`. -/
  page : Option String
  /-- A URL elsewhere. -/
  href : Option String
  label : String
  position : Option Position
  deriving DecidableEq, Repr

inductive Target where
  | page (path : String)
  | external (url : String)
  deriving DecidableEq, Repr

/-- Whether a text starts with the scheme of a URL. Any characters of a scheme make one. -/
def isExternal (s : String) : Bool :=
  match s.toList.takeWhile (· ≠ ':'), s.toList.dropWhile (· ≠ ':') with
  | [], _ | _, [] => false
  | scheme, _ => scheme.all Url.isSchemeChar

namespace Link

def fields := Fields.optional "to" .text <| .optional "href" .text <| .required "label" .text <|
  .optional "position" (.choice Position.variants) .done

def shape : Shape Link := .record "NavLink" fields
  { pack := fun (page, href, label, position, ()) => ⟨page, href, label, position⟩
    unpack := fun l => (l.page, l.href, l.label, l.position, ()) }

def ofPage (path label : String) : Link := ⟨some path, none, label, none⟩

def ofUrl (url label : String) : Link := ⟨none, some url, label, none⟩

/-- Where the link leads, unless it names no target or two. -/
def target? (l : Link) : Option Target :=
  match l.page, l.href with
  | some path, none => some (.page path)
  | none, some url => some (.external url)
  | _, _ => none

/-- Links stand on the left if they do not say. -/
def side (l : Link) : Position := l.position.getD .left

def checkPage (path : String) : List Finding :=
  if IsBlank path then [.here (.blank .linkTarget)]
  else if isExternal path then [.here (.externalPage path)]
  else []

def checkUrl (url : String) : List Finding :=
  if IsBlank url then [.here (.blank .linkTarget)]
  else
    match Url.parse url with
    | .ok _ => []
    | .error fault => [.here (.invalidLink url fault)]

def checkTarget (l : Link) : List Finding :=
  match l.page, l.href with
  | some _, some _ => [.here .twoTargets]
  | none, none => [.here .noTarget]
  | some path, none => Located.below (.key "to") (checkPage path)
  | none, some url => Located.below (.key "href") (checkUrl url)

def check (l : Link) : List Finding :=
  Located.below (.key "label") (requireText .linkLabel l.label) ++ l.checkTarget

def checkAll (links : List Link) : List Finding := Located.each check 0 links

end Link

end SiteManifest
