/-!
# Schemes

What is passed over in the text of a URL: blanks and controls around it, and tabs and line ends
wherever they stand. Then the name before the first colon, which decides how the rest is read:
schemes of the web take a backslash for a slash and need a host, files may have one, all others are
taken as they stand.
-/
namespace SiteManifest.Url

/-- Tabs and line ends. -/
def isIgnored (c : Char) : Bool := c == '\t' || c == '\n' || c == '\r'

def significant (cs : List Char) : List Char := cs.filter fun c => !isIgnored c

/-- The text without the blanks and controls around it. -/
def trimmed (text : String) : List Char :=
  let isEdge (c : Char) : Bool := c.toNat ≤ 0x20
  ((text.toList.dropWhile isEdge).reverse.dropWhile isEdge).reverse

/-- The characters of a scheme after its first one, which is a letter. -/
def isSchemeChar (c : Char) : Bool := c.isAlphanum || c == '+' || c == '-' || c == '.'

/-- The scheme in lower case, and the text after its colon. -/
def scheme? (cs : List Char) : Option (String × List Char) :=
  match cs.takeWhile isSchemeChar, cs.dropWhile isSchemeChar with
  | c :: name, ':' :: rest =>
    if c.isAlpha then some (String.ofList ((c :: name).map Char.toLower), rest) else none
  | _, _ => none

inductive Family where
  | web
  | file
  | other
  deriving DecidableEq, Repr

def Family.ofScheme (scheme : String) : Family :=
  if scheme ∈ ["http", "https", "ws", "wss", "ftp"] then .web
  else if scheme = "file" then .file
  else .other

/-- Whether a character ends a part of the path or the authority. -/
def Family.isSlash (family : Family) (c : Char) : Bool :=
  c == '/' || (c == '\\' && family != .other)

/-- Whether a character ends the authority. -/
def Family.endsAuthority (family : Family) (c : Char) : Bool :=
  family.isSlash c || c == '?' || c == '#'

end SiteManifest.Url
