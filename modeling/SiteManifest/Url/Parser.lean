import SiteManifest.Url.Address
import SiteManifest.Url.Basic
import SiteManifest.Url.Domain
import SiteManifest.Url.Path
import SiteManifest.Url.Scheme

/-!
# Reading a URL

A text is cut into scheme, authority and path by the characters that end each of them; then every
part is read on its own.
-/
namespace SiteManifest.Url

open Text

/-! ## Hosts -/

/-- The host at the start of an authority and the text after it. It ends at a colon, except between
square brackets. -/
def takeHost (family : Family) (inBrackets : Bool) : List Char → List Char × List Char
  | [] => ([], [])
  | c :: cs =>
    if family.endsAuthority c || (c == ':' && !inBrackets) then ([], c :: cs)
    else
      let inBrackets := c == '[' || (inBrackets && c != ']')
      let (host, rest) := takeHost family inBrackets cs
      (c :: host, rest)

/-- The address between square brackets. -/
def bracketHost (cs : List Char) : Except Fault Host :=
  if cs.getLast? = some ']' then
    match ipv6? cs.dropLast with
    | some pieces => .ok (.ipv6 pieces)
    | none => .error .invalidIpv6
  else .error .invalidIpv6

/-- A host of the web or of a file: an address, or a domain name that may be percent-encoded. -/
def namedHost (cs : List Char) : Except Fault Host :=
  match cs with
  | '[' :: rest => bracketHost rest
  | cs =>
    match (percentDecode? cs).bind domain? with
    | none => .error .invalidDomainName
    | some [] => .error .emptyHost
    | some name =>
      if endsInNumber name then
        match ipv4? name with
        | some address => .ok (.ipv4 address)
        | none => .error .invalidIpv4
      else .ok (.domain (String.ofList name))

/-- The characters that end a host of any kind, in a scheme that takes hosts as they stand. -/
def isForbiddenInHost (c : Char) : Bool :=
  c ∈ ['\x00', '\t', '\n', '\r', ' ', '#', '/', ':', '<', '>', '?', '@', '[', '\\', ']', '^', '|']

/-- A host of another scheme, which may be empty. -/
def plainHost (cs : List Char) : Except Fault (Option Host) :=
  match cs with
  | [] => .ok none
  | '[' :: rest => (bracketHost rest).map some
  | cs =>
    if cs.any isForbiddenInHost then .error .invalidDomainCharacter
    else .ok (some (.domain (String.ofList (percentEncode isControlOrForeign cs))))

/-! ## Authority -/

/-- The user name and password before the last at sign of an authority, and the text after it. -/
def takeUser (family : Family) (cs : List Char) : Option (List Char) × List Char :=
  let authority := cs.takeWhile fun c => !family.endsAuthority c
  if '@' ∈ authority then
    let host := (authority.reverse.takeWhile (· ≠ '@')).reverse
    let user := authority.take (authority.length - host.length - 1)
    (some user, cs.drop (user.length + 1))
  else (none, cs)

/-- The text after the number of a port, which ends the authority. -/
def afterPort (cs : List Char) : Except Fault (List Char) :=
  let digits := cs.takeWhile Char.isDigit
  if 65535 < decimalValue digits then .error .invalidPort
  else
    match cs.dropWhile Char.isDigit with
    | [] => .ok []
    | c :: rest => if c ∈ ['/', '\\', '?', '#'] then .ok (c :: rest) else .error .invalidPort

/-- A user name or password that leaves a trace in the URL. A lone colon leaves none. -/
def hasCredentials (user : Option (List Char)) : Bool :=
  user.any fun user => user != [] && user != [':']

def startsWithEnd (family : Family) : List Char → Bool
  | [] => false
  | c :: _ => family.endsAuthority c

/-- The host of the authority at the start of a text, and the text after the authority. -/
def authority (family : Family) (cs : List Char) : Except Fault (Option Host × List Char) :=
  let (user, cs) := takeUser family cs
  if user == some [] && startsWithEnd family cs then .error .emptyHost
  else
    let (name, rest) := takeHost family false cs
    if name.isEmpty && (family == .web || rest.head? == some ':') then .error .emptyHost
    else do
      let host ← if family == .web then (namedHost name).map some else plainHost name
      let rest ←
        match rest with
        | ':' :: digits => afterPort digits
        | rest => pure rest
      if host.isNone && hasCredentials user then .error .emptyHost
      else .ok (host, rest)

/-! ## Files -/

/-- The host at the start of an authority, the trail in front of its path, and the path. The local
host and a drive count as none. -/
def fileHost (cs : List Char) : Except Fault (Option Host × Trail × List Char) :=
  let endsHost := Family.endsAuthority .file
  let name := significant (cs.takeWhile fun c => !endsHost c)
  let path := cs.dropWhile fun c => !endsHost c
  if isDrive name then .ok (none, .start, cs)
  else if name.isEmpty then .ok (none, .behindNoHost, path)
  else do
    let host ← namedHost name
    .ok (if host = .domain "localhost" then (none, .behindNoHost, path)
      else (some host, .start, path))

/-- The text behind the two slashes of an authority. -/
def authorityOfFile? (cs : List Char) : Option (List Char) :=
  match cs.dropWhile isIgnored with
  | [] => none
  | a :: cs =>
    match cs.dropWhile isIgnored with
    | [] => none
    | b :: cs => if Family.isSlash .file a && Family.isSlash .file b then some cs else none

/-- The URL of a file, from a text with its tabs and line ends. -/
def ofFile (cs : List Char) : Except Fault Url :=
  match authorityOfFile? cs with
  | some cs => do
    let (host, front, path) ← fileHost cs
    let trail := front.followPath .file path
    .ok ⟨"file", if trail.atDrive then none else host, trail.filePath⟩
  | none => .ok ⟨"file", none, (Trail.start.followPath .file cs).filePath⟩

/-! ## All schemes -/

def ofWeb (scheme : String) (cs : List Char) : Except Fault Url := do
  let (host, rest) ← authority .web (cs.dropWhile (Family.isSlash .web))
  .ok ⟨scheme, host, webPath rest⟩

def ofOther (scheme : String) (cs : List Char) : Except Fault Url :=
  match cs with
  | '/' :: '/' :: rest => do
    let (host, rest) ← authority .other rest
    .ok ⟨scheme, host, otherPath rest⟩
  | '/' :: _ => .ok ⟨scheme, none, otherPath cs⟩
  | cs => .ok ⟨scheme, none, plainPath cs⟩

/-- Reads an absolute URL. A scheme holds no colon, so the text behind the first one is the rest with
its tabs and line ends, which only a file needs. -/
def parse (text : String) : Except Fault Url :=
  let chars := trimmed text
  match scheme? (significant chars) with
  | none => .error .relative
  | some (scheme, rest) =>
    match Family.ofScheme scheme with
    | .web => ofWeb scheme rest
    | .file => ofFile ((chars.dropWhile (· ≠ ':')).drop 1)
    | .other => ofOther scheme rest

end SiteManifest.Url
