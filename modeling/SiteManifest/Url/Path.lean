import SiteManifest.Text.Split
import SiteManifest.Url.Percent
import SiteManifest.Url.Scheme

/-!
# Paths of URLs

A path is a list of segments, each behind a slash. Normal form follows dots: a single one stays
where it is, two go back over the segment before, unless that is the letter of a drive. The path of
a file may start at a drive, which is then written with a colon.
-/
namespace SiteManifest.Url

open Text

def isSingleDot (segment : List Char) : Bool :=
  (String.ofList (segment.map Char.toLower)) ∈ [".", "%2e"]

def isDoubleDot (segment : List Char) : Bool :=
  (String.ofList (segment.map Char.toLower)) ∈ ["..", ".%2e", "%2e.", "%2e%2e"]

/-- A letter with a colon or a bar. -/
def isDrive : List Char → Bool
  | [c, mark] => c.isAlpha && (mark == ':' || mark == '|')
  | _ => false

/-- A drive that a tab or line end parts from the text after it, and that text. -/
def partedDrive? (segment : List Char) : Option (List Char × List Char) :=
  match segment.dropWhile isIgnored with
  | [] => none
  | letter :: afterLetter =>
    match afterLetter.dropWhile isIgnored with
    | ':' :: gap :: text =>
      if letter.isAlpha && isIgnored gap && text.any (fun c => !isIgnored c) then
        some ([letter, ':'], significant text)
      else none
    | _ => none

/-- A path as far as it has been followed: its segments, the last one first, and whether the first
of them was taken for a drive, which belongs to no host. -/
structure Trail where
  segments : List (List Char)
  atDrive : Bool

namespace Trail

/-- The trail of a path that starts at its first slash. -/
def start : Trail := ⟨[], false⟩

/-- The trail behind an authority that names no host: an empty segment comes first. -/
def behindNoHost : Trail := ⟨[[]], false⟩

def push (trail : Trail) (segment : List Char) : Trail :=
  ⟨segment :: trail.segments, trail.atDrive⟩

/-- One segment back, but never over a drive. -/
def back (trail : Trail) : Trail :=
  match trail.segments with
  | [] => trail
  | last :: before => if isDrive last then trail else ⟨before, trail.atDrive⟩

/-- Goes on to a segment that is no dot. -/
def add (family : Family) (trail : Trail) (segment : List Char) : Trail :=
  let encoded := percentEncode isEncodedInPath (significant segment)
  if family = .file && trail.segments.isEmpty then
    match partedDrive? segment with
    | some (drive, text) => (trail.push drive).push (percentEncode isEncodedInPath text)
    | none =>
      if isDrive encoded then ⟨[encoded.take 1 ++ [':']], true⟩ else trail.push encoded
  else trail.push encoded

/-- Follows the segments between the slashes of a text. A dot at the very end leaves an empty
segment. -/
def follow (family : Family) (trail : Trail) : List (List Char) → Trail
  | [] => trail
  | segment :: rest =>
    let close (trail : Trail) := if rest.isEmpty then trail.push [] else trail
    if isDoubleDot (significant segment) then (close trail.back).follow family rest
    else if isSingleDot (significant segment) then (close trail).follow family rest
    else (trail.add family segment).follow family rest

/-- The segments in order, each behind a slash. -/
def chars (trail : Trail) : List Char := trail.segments.reverse.flatMap ('/' :: ·)

end Trail

/-- The path before a query or fragment. -/
def beforeQuery (cs : List Char) : List Char := cs.takeWhile fun c => c ≠ '?' && c ≠ '#'

def dropSlash (family : Family) (cs : List Char) : List Char :=
  match cs.dropWhile isIgnored with
  | [] => []
  | c :: cs => if family.isSlash c then cs else c :: cs

/-- Follows a path, whose first slash may be missing. -/
def Trail.followPath (family : Family) (trail : Trail) (cs : List Char) : Trail :=
  trail.follow family (splitWhere family.isSlash (dropSlash family (beforeQuery cs)))

/-- The path of a URL of the web, which has at least one slash. -/
def webPath (cs : List Char) : String := String.ofList (Trail.start.followPath .web cs).chars

/-- The path of a file, behind exactly one slash. -/
def Trail.filePath (trail : Trail) : String :=
  String.ofList ('/' :: trail.chars.dropWhile (· == '/'))

/-- The path behind an authority or a slash, in any other scheme; it may be missing. -/
def otherPath (cs : List Char) : String :=
  if (beforeQuery cs).isEmpty then "" else String.ofList (Trail.start.followPath .other cs).chars

/-- A path that has no segments. -/
def plainPath (cs : List Char) : String :=
  String.ofList (percentEncode isControlOrForeign (beforeQuery cs))

end SiteManifest.Url
