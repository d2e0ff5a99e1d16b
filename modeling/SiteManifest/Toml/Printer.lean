import SiteManifest.Json.Basic
import SiteManifest.Number.Decimal
import SiteManifest.Toml.Parser

/-!
# TOML text of a value

A table is written with its plain values first, then with a header for every table and for every
element of an array of tables in it. Output is a list of characters, so that it can be compared with
what the parser consumes.
-/
namespace SiteManifest.Toml

open Number Text

/-! ## Values without a text -/

inductive Fault where
  | null
  | tooLarge
  | notTable
  deriving DecidableEq, Repr

def Fault.message : Fault → String
  | .null => "unsupported unit type"
  | .tooLarge => "out-of-range value for u64 type"
  | .notTable => "unsupported rust type"

mutual

/-- The first value, in the order of writing, that TOML has no form for. -/
def fault? : Json → Option Fault
  | .null => some .null
  | .number (.integer n) => if n.value < 0x8000000000000000 then none else some .tooLarge
  | .list vs => itemFault? vs
  | .table members => memberFault? members
  | .bool _ | .number (.real _) | .string _ => none

def itemFault? : List Json → Option Fault
  | [] => none
  | v :: vs => (fault? v).or (itemFault? vs)

def memberFault? : List (String × Json) → Option Fault
  | [] => none
  | (_, v) :: rest => (fault? v).or (memberFault? rest)

end

/-! ## Texts -/

/-- Control characters, less the tab and the line feed. -/
def isControl (c : Char) : Bool :=
  (c.toNat < 0x20 && c != '\t' && c != '\n') || c.toNat = 0x7F

/-- The longest row of one character. -/
def longestRun (quote : Char) (longest current : Nat) : List Char → Nat
  | [] => max longest current
  | c :: cs =>
    if c = quote then longestRun quote longest (current + 1) cs
    else longestRun quote (max longest current) 0 cs

def hasControl (cs : List Char) : Bool := cs.any isControl

/-- An escaped character; others stand for themselves. -/
def escaped (c : Char) : List Char :=
  if c = '\\' then ['\\', '\\']
  else if c.toNat = 0x08 then ['\\', 'b']
  else if c = '\t' then ['\\', 't']
  else if c = '\n' then ['\\', 'n']
  else if c.toNat = 0x0C then ['\\', 'f']
  else if c = '\r' then ['\\', 'r']
  else if c.toNat < 0x20 || c.toNat = 0x7F then
    ['\\', 'u', '0', '0', upperHex (c.toNat / 16), upperHex c.toNat]
  else [c]

def basicChar (c : Char) : List Char := if c = '"' then ['\\', '"'] else escaped c

def basicText (cs : List Char) : List Char := '"' :: (cs.flatMap basicChar ++ ['"'])

def literalText (cs : List Char) : List Char := '\'' :: (cs ++ ['\''])

/-- The characters between three double quotes: line ends stand for themselves, and so do up to two
quotes in a row. -/
def basicLineChars (quotes : Nat) : List Char → List Char
  | [] => []
  | c :: cs =>
    if c = '"' then
      if quotes < 2 then c :: basicLineChars (quotes + 1) cs
      else '\\' :: '"' :: basicLineChars 0 cs
    else (if c = '\n' then [c] else escaped c) ++ basicLineChars 0 cs

/-- A text of several lines starts on a line of its own. -/
def firstLineEnd (cs : List Char) : List Char := if '\n' ∈ cs then ['\n'] else []

def basicLines (cs : List Char) : List Char :=
  ['"', '"', '"'] ++ firstLineEnd cs ++ basicLineChars 0 cs ++ ['"', '"', '"']

def literalLines (cs : List Char) : List Char :=
  ['\'', '\'', '\''] ++ firstLineEnd cs ++ cs ++ ['\'', '\'', '\'']

/-- The plainest form that a text has: double quotes, single quotes, or three of either; with
escapes only if nothing else is left. -/
def textChars (s : String) : List Char :=
  let cs := s.toList
  let control := hasControl cs
  if !control && '\\' ∉ cs && '"' ∉ cs && '\n' ∉ cs then basicText cs
  else if !control && '\'' ∉ cs && '\n' ∉ cs then literalText cs
  else if !control && '\\' ∉ cs && longestRun '"' 0 0 cs ≤ 2 then basicLines cs
  else if !control && longestRun '\'' 0 0 cs ≤ 2 then literalLines cs
  else if '\n' ∈ cs then basicLines cs
  else basicText cs

/-! ## Keys -/

def keyChars (key : String) : List Char :=
  let cs := key.toList
  if !cs.isEmpty && cs.all isBareKeyChar then cs
  else if !hasControl cs && '\n' ∉ cs && '\\' ∉ cs && '"' ∉ cs then basicText cs
  else if !hasControl cs && '\n' ∉ cs && '\'' ∉ cs then literalText cs
  else basicText cs

def pathChars : List String → List Char
  | [] => []
  | [key] => keyChars key
  | key :: keys => keyChars key ++ '.' :: pathChars keys

/-! ## Values on the right of a key -/

/-- Floats are never written with an exponent. Of two equally near decimals the one away from
zero is taken. -/
def floatLayout : Layout := ⟨none, none, .away⟩

/-- An item of an array of several, on a line of its own. -/
def itemLine (chars : List Char) : List Char := '\n' :: (List.replicate 4 ' ' ++ chars ++ [','])

mutual

def valueChars : Json → List Char
  | .null => []
  | .bool b => (toString b).toList
  | .number (.integer n) => (toString n.value).toList
  | .number (.real x) => (floatLayout.write x).toList
  | .string s => textChars s
  | .list [] => ['[', ']']
  | .list [v] => '[' :: (valueChars v ++ [']'])
  | .list (v :: w :: vs) =>
    '[' :: (itemLine (valueChars v) ++ itemLine (valueChars w) ++ itemLines vs ++ ['\n', ']'])
  | .table [] => ['{', '}']
  | .table ((k, v) :: rest) =>
    '{' :: ' ' :: (keyChars k ++ [' ', '=', ' '] ++ valueChars v ++ memberChars rest ++ [' ', '}'])

def itemLines : List Json → List Char
  | [] => []
  | v :: vs => itemLine (valueChars v) ++ itemLines vs

/-- The members after the first, each behind a comma. -/
def memberChars : List (String × Json) → List Char
  | [] => []
  | (k, v) :: rest =>
    ',' :: ' ' :: (keyChars k ++ [' ', '=', ' '] ++ valueChars v ++ memberChars rest)

end

/-! ## Tables -/

def isTable : Json → Bool
  | .table _ => true
  | _ => false

/-- Whether a value is written below headers: a table, or a list of nothing but tables. -/
def hasHeader : Json → Bool
  | .table _ => true
  | .list (v :: vs) => isTable v && vs.all isTable
  | _ => false

/-- The lines of the members that are written without a header. -/
def pairLines : List (String × Json) → List Char
  | [] => []
  | (k, v) :: rest =>
    (if hasHeader v then [] else keyChars k ++ [' ', '=', ' '] ++ valueChars v ++ ['\n']) ++
      pairLines rest

/-- A table has a header of its own if it holds a plain value, or nothing at all. -/
def needsHeader (members : List (String × Json)) : Bool :=
  members.isEmpty || members.any fun (_, v) => !hasHeader v

/-- A header, behind an empty line unless it is at the start of the text. -/
def headerLine (isFirst isArray : Bool) (path : List String) : List Char :=
  (if isFirst then [] else ['\n']) ++ (if isArray then ['[', '['] else ['[']) ++
    pathChars path ++ (if isArray then [']', ']', '\n'] else [']', '\n'])

mutual

/-- The text of a table or array of tables under a path; nothing for other values. `isFirst` says
that nothing has been written yet. -/
def sectionChars (isFirst : Bool) (path : List String) : Json → List Char
  | .table members =>
    let opening :=
      if needsHeader members then headerLine isFirst false path ++ pairLines members else []
    opening ++ sectionsChars (isFirst && opening.isEmpty) path members
  | .list vs => elementsChars isFirst path vs
  | _ => []

/-- The text of the elements of an array of tables. -/
def elementsChars (isFirst : Bool) (path : List String) : List Json → List Char
  | [] => []
  | .table members :: vs =>
    headerLine isFirst true path ++ pairLines members ++ sectionsChars false path members ++
      elementsChars false path vs
  | _ :: vs => elementsChars isFirst path vs

/-- The text of all members of a table that are written below headers. -/
def sectionsChars (isFirst : Bool) (path : List String) : List (String × Json) → List Char
  | [] => []
  | (k, v) :: rest =>
    let first := if hasHeader v then sectionChars isFirst (path ++ [k]) v else []
    first ++ sectionsChars (isFirst && first.isEmpty) path rest

end

def documentChars (members : List (String × Json)) : List Char :=
  let pairs := pairLines members
  pairs ++ sectionsChars pairs.isEmpty [] members

/-- The text of a value that is a table and holds nothing that TOML has no form for. -/
def render (v : Json) : Except Fault String :=
  match fault? v, v with
  | some fault, _ => .error fault
  | none, .table members => .ok (String.ofList (documentChars members))
  | none, _ => .error .notTable

end SiteManifest.Toml
